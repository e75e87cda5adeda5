import SharedSync.Proofs.Text.Surrogates
import SharedSync.Proofs.Wire.Spellings

/-!
# Wire — which bytes are read as attributes

A block of attributes begins with four numbers, of which the last two say how many bytes of
descriptor and of name follow.  Bytes are read as attributes when they hold what these numbers
promise and the name is UTF-16 (`Begins`); and the attributes are then what the numbers and the bytes
say (`Says`).

* `decode?_eq`: what is read, by the fields of the block.
* `decode?_eq_some_iff`: bytes are read as attributes exactly if they begin with a block that says
  these attributes.
* `encode_eq_take_iff`: which is the block that the attributes are written as, unless the name is
  longer than a writer would make it.
* `read_by_grammar`: the three together.
-/

namespace SharedSync

namespace Words

theorem take_append_drop_add (b : Bytes) (offset n : Nat) :
    (b.drop offset).take n ++ b.drop (offset + n) = b.drop offset := by
  rw [← List.drop_drop, List.take_append_drop]

/-- The four bytes at `offset`, least significant first, as a number. -/
def wordAt (b : Bytes) (offset : Nat) : UInt32 :=
  UInt32.ofNat (ofLittleEndian ((b.drop offset).take 4))

theorem wordAt_append (front : Bytes) (v : UInt32) (tail : Bytes) :
    wordAt (front ++ (le32 v ++ tail)) front.length = v := by
  have hv : v.toNat % values 4 = v.toNat := Nat.mod_eq_of_lt v.toNat_lt
  have htake : (le32 v ++ tail).take 4 = le32 v := List.take_left' (length_le32 v)
  rw [wordAt, List.drop_left, htake, le32, ofLittleEndian_littleEndian, hv, UInt32.ofNat_toNat]

/-- A number is written as it was read. -/
theorem le32_wordAt {b : Bytes} {offset : Nat} (h : offset + 4 ≤ b.length) :
    le32 (wordAt b offset) ++ b.drop (offset + 4) = b.drop offset := by
  have hlen : ((b.drop offset).take 4).length = 4 := by
    rw [List.length_take, List.length_drop]
    omega
  have hread : readLe32? ((b.drop offset).take 4) = some (wordAt b offset) := if_pos hlen
  rw [le32_of_readLe32? hread, take_append_drop_add]

end Words

namespace ObjectAttributes

open Words (wordAt)

variable {a : ObjectAttributes} {b bs : Bytes}

/-! ### The fields of a block -/

/-- The number of bytes of descriptor that the block at the front of `b` announces. -/
def descriptorLength (b : Bytes) : Nat := (wordAt b 8).toNat

/-- The number of bytes of name that it announces. -/
def nameLength (b : Bytes) : Nat := (wordAt b 12).toNat

/-- The number of bytes that the block takes by its own account. -/
def extent (b : Bytes) : Nat := fixedBytes + descriptorLength b + nameLength b

/-- The bytes of the descriptor. -/
def descriptorIn (b : Bytes) : Bytes := (b.drop fixedBytes).take (descriptorLength b)

/-- The bytes of the name. -/
def nameIn (b : Bytes) : Bytes := (b.drop (fixedBytes + descriptorLength b)).take (nameLength b)

/-- The units of the name. -/
def unitsIn (b : Bytes) : List UInt16 := Utf16.ofBytes (nameIn b)

/-- No block is so long that its extent does not fit 64 bits. -/
theorem extent_lt (b : Bytes) : extent b < UInt64.size := by
  have hd := (wordAt b 8).toNat_lt
  have hn := (wordAt b 12).toNat_lt
  simp only [extent, descriptorLength, nameLength, fixedBytes, UInt64.size]
  omega

/-- Numbers, descriptor and name, with `behind` behind them. -/
def laidOut (root flags descriptorLength nameLength : UInt32) (descriptor name behind : Bytes) :
    Bytes :=
  Words.le32 root ++ (Words.le32 flags ++ (Words.le32 descriptorLength ++
    (Words.le32 nameLength ++ (descriptor ++ (name ++ behind)))))

/-- Bytes that hold what they announce are laid out in this way. -/
theorem eq_laidOut (h : extent b ≤ b.length) :
    b = laidOut (wordAt b 0) (wordAt b 4) (wordAt b 8) (wordAt b 12) (descriptorIn b) (nameIn b)
      (b.drop (extent b)) := by
  simp only [extent, fixedBytes] at h
  have hname : nameIn b ++ b.drop (extent b) = b.drop (fixedBytes + descriptorLength b) :=
    Words.take_append_drop_add b (fixedBytes + descriptorLength b) (nameLength b)
  have hdescriptor : descriptorIn b ++ b.drop (fixedBytes + descriptorLength b) =
      b.drop fixedBytes := Words.take_append_drop_add b fixedBytes (descriptorLength b)
  have h₁₂ : Words.le32 (wordAt b 12) ++ b.drop fixedBytes = b.drop 12 :=
    Words.le32_wordAt (by omega)
  have h₈ : Words.le32 (wordAt b 8) ++ b.drop 12 = b.drop 8 := Words.le32_wordAt (by omega)
  have h₄ : Words.le32 (wordAt b 4) ++ b.drop 8 = b.drop 4 := Words.le32_wordAt (by omega)
  have h₀ : Words.le32 (wordAt b 0) ++ b.drop 4 = b := Words.le32_wordAt (by omega)
  rw [laidOut, hname, hdescriptor, h₁₂, h₈, h₄, h₀]

theorem length_descriptorIn (h : extent b ≤ b.length) :
    (descriptorIn b).length = descriptorLength b := by
  simp only [extent] at h
  rw [descriptorIn, List.length_take, List.length_drop]
  omega

theorem length_nameIn (h : extent b ≤ b.length) : (nameIn b).length = nameLength b := by
  simp only [extent] at h
  rw [nameIn, List.length_take, List.length_drop]
  omega

section LaidOut

variable {root flags dl nl : UInt32} {descriptor name behind : Bytes}
  (hd : descriptor.length = dl.toNat) (hn : name.length = nl.toNat)

include hd hn

/-- The announced bytes are there. -/
theorem extent_laidOut_le : extent (laidOut root flags dl nl descriptor name behind) ≤
    (laidOut root flags dl nl descriptor name behind).length := by
  have h₈ := Words.wordAt_append (Words.le32 root ++ Words.le32 flags) dl
    (Words.le32 nl ++ (descriptor ++ (name ++ behind)))
  have h₁₂ := Words.wordAt_append (Words.le32 root ++ (Words.le32 flags ++ Words.le32 dl)) nl
    (descriptor ++ (name ++ behind))
  simp only [List.length_append, Words.length_le32, Nat.reduceAdd, List.append_assoc] at h₈ h₁₂
  simp only [extent, descriptorLength, nameLength, laidOut, h₈, h₁₂, ← hd, ← hn, fixedBytes,
    List.length_append, Words.length_le32]
  omega

/-- What is read of bytes that are laid out. -/
theorem decode?_laidOut : decode? (laidOut root flags dl nl descriptor name behind) =
    if nl.toNat % 2 = 0 then
      (readName? name).map fun name => ⟨Handle.ofRaw? root, ⟨flags⟩, name, descriptor⟩
    else none := by
  obtain ⟨c₁, h₁, hrest⟩ := Cursor.word?_of_rest
    (Cursor.rest_ofBytes (laidOut root flags dl nl descriptor name behind))
  obtain ⟨c₂, h₂, hrest⟩ := Cursor.word?_of_rest hrest
  obtain ⟨c₃, h₃, hrest⟩ := Cursor.word?_of_rest hrest
  obtain ⟨c₄, h₄, hrest⟩ := Cursor.word?_of_rest hrest
  obtain ⟨c₅, h₅, hrest⟩ := Cursor.take?_of_rest hrest
  obtain ⟨c₆, h₆, -⟩ := Cursor.take?_of_rest hrest
  rw [hd] at h₅
  rw [hn] at h₆
  simp only [decode?, Option.bind_eq_bind, h₁, h₂, h₃, h₄, Option.bind_some, h₅, h₆, ne_eq]
  by_cases heven : nl.toNat % 2 = 0
  · simp only [heven, not_true_eq_false, if_false, if_true]
    cases readName? name <;> rfl
  · rw [if_pos heven, if_neg heven]

end LaidOut

/-- Only bytes that hold what they announce are read. -/
theorem extent_le_of_decode? (h : decode? b = some a) : extent b ≤ b.length := by
  simp only [decode?, Option.bind_eq_bind, Option.bind_eq_some_iff, Prod.exists] at h
  obtain ⟨root, c₁, h₁, flags, c₂, h₂, dl, c₃, h₃, nl, c₄, h₄, h⟩ := h
  split at h
  · cases h
  · simp only [Option.bind_eq_some_iff, Prod.exists] at h
    obtain ⟨descriptor, c₅, h₅, name, c₆, h₆, -⟩ := h
    obtain ⟨hdescriptor, hd⟩ := Cursor.rest_of_take? h₅
    obtain ⟨hname, hn⟩ := Cursor.rest_of_take? h₆
    have hb : b = laidOut root flags dl nl descriptor name c₆.rest := by
      rw [laidOut, ← hname, ← hdescriptor, ← Cursor.rest_of_word? h₄, ← Cursor.rest_of_word? h₃,
        ← Cursor.rest_of_word? h₂, ← Cursor.rest_of_word? h₁, Cursor.rest_ofBytes]
    rw [hb]
    exact extent_laidOut_le hd hn

/-- **What is read, by the fields of the block.** -/
theorem decode?_eq (b : Bytes) : decode? b =
    if extent b ≤ b.length ∧ nameLength b % 2 = 0 then
      (readName? (nameIn b)).map fun name =>
        ⟨Handle.ofRaw? (wordAt b 0), ⟨wordAt b 4⟩, name, descriptorIn b⟩
    else none := by
  by_cases hcovers : extent b ≤ b.length
  · have h := @decode?_laidOut (wordAt b 0) (wordAt b 4) _ _ _ _ (b.drop (extent b))
      (length_descriptorIn hcovers) (length_nameIn hcovers)
    rw [← eq_laidOut hcovers] at h
    simp only [h, hcovers, true_and, nameLength]
  · rw [if_neg fun h => hcovers h.1]
    cases h : decode? b with
    | none => rfl
    | some a => exact absurd (extent_le_of_decode? h) hcovers

/-! ### Names -/

theorem ofBytes_eq_nil_iff (even : bs.length % 2 = 0) : Utf16.ofBytes bs = [] ↔ bs = [] := by
  constructor
  · intro h
    rw [← Utf16.toBytes_ofBytes even, h]
    rfl
  · rintro rfl
    rfl

/-- A name is read from its units, and from no others; without units there is none. -/
theorem readName?_eq_some_iff (even : bs.length % 2 = 0) {name : Option String} :
    readName? bs = some name ↔
      Utf16.encode (name.getD "") = Utf16.ofBytes bs ∧ (name = none ↔ Utf16.ofBytes bs = []) := by
  rw [ofBytes_eq_nil_iff even]
  by_cases hbs : bs = []
  · subst hbs
    constructor
    · rintro ⟨⟩
      exact ⟨rfl, iff_of_true rfl rfl⟩
    · rintro ⟨-, hname⟩
      rw [hname.mpr rfl]
      rfl
  · have hread : readName? bs = (Utf16.decode? (Utf16.ofBytes bs)).map some := by
      rw [readName?, if_neg (by rwa [List.isEmpty_iff])]
    rw [hread]
    constructor
    · intro h
      obtain ⟨s, hs, rfl⟩ := Option.map_eq_some_iff.mp h
      exact ⟨Utf16.encode_of_decode? hs, iff_of_false nofun hbs⟩
    · rintro ⟨hunits, hname⟩
      cases name with
      | none => exact absurd (hname.mp rfl) hbs
      | some s => rw [← hunits, Option.getD_some, Utf16.decode?_encode, Option.map_some]

/-- A name can be read just if its units are well-formed. -/
theorem exists_readName?_iff (even : bs.length % 2 = 0) :
    (∃ name, readName? bs = some name) ↔ Utf16.WellFormed (Utf16.ofBytes bs) := by
  by_cases hbs : bs = []
  · subst hbs
    exact iff_of_true ⟨none, rfl⟩ Utf16.wellFormed_nil
  · rw [← Utf16.isSome_decode?_iff, readName?, if_neg (by rwa [List.isEmpty_iff]),
      ← Option.isSome_iff_exists, Option.isSome_map]

/-! ### The grammar -/

/-- The bytes begin with a block that can be read. -/
structure Begins (b : Bytes) : Prop where
  covers : extent b ≤ b.length
  even : nameLength b % 2 = 0
  name : Utf16.WellFormed (unitsIn b)

/-- The attributes are what the block at the front of `b` says. -/
structure Says (b : Bytes) (a : ObjectAttributes) : Prop where
  root : Handle.rawOr0 a.root = wordAt b 0
  /-- A root of zero is no root. -/
  rootless : a.root = none ↔ wordAt b 0 = 0
  flags : a.flags.bits = wordAt b 4
  descriptor : a.descriptor = descriptorIn b
  name : a.nameUnits = unitsIn b
  /-- An empty name is no name. -/
  nameless : a.name = none ↔ unitsIn b = []

theorem ofRaw?_eq_none_iff (raw : UInt32) : Handle.ofRaw? raw = none ↔ raw = 0 := by
  rw [Handle.ofRaw?]
  by_cases h : raw = 0
  · rw [dif_neg (Decidable.not_not.mpr h)]
    exact iff_of_true rfl h
  · rw [dif_pos h]
    exact iff_of_false (Option.some_ne_none _) h

/-- What a readable block says, by its fields and a name that is read from it. -/
theorem says_iff (covers : extent b ≤ b.length) (even : nameLength b % 2 = 0) : Says b a ↔
    readName? (nameIn b) = some a.name ∧
      a = ⟨Handle.ofRaw? (wordAt b 0), ⟨wordAt b 4⟩, a.name, descriptorIn b⟩ := by
  rw [← length_nameIn covers] at even
  rw [readName?_eq_some_iff even]
  rcases a with ⟨root, ⟨flags⟩, name, descriptor⟩
  constructor
  · rintro ⟨hroot, -, hflags, hdescriptor, hname, hnameless⟩
    refine ⟨⟨hname, hnameless⟩, ?_⟩
    simp only at hroot hflags hdescriptor
    rw [← hroot, ← hflags, ← hdescriptor, Handle.ofRaw?_rawOr0]
  · rintro ⟨⟨hname, hnameless⟩, h⟩
    obtain ⟨rfl, hflags, -, rfl⟩ := ObjectAttributes.mk.inj h
    obtain rfl := ObjectFlags.mk.inj hflags
    exact ⟨Handle.rawOr0_ofRaw? _, ofRaw?_eq_none_iff _, rfl, rfl, hname, hnameless⟩

/-- **Bytes are read as attributes exactly if they begin with a block that says these.** -/
theorem decode?_eq_some_iff : decode? b = some a ↔ Begins b ∧ Says b a := by
  rw [decode?_eq]
  by_cases h : extent b ≤ b.length ∧ nameLength b % 2 = 0
  · obtain ⟨covers, even⟩ := h
    have hlen : (nameIn b).length % 2 = 0 := by rwa [length_nameIn covers]
    rw [if_pos ⟨covers, even⟩, says_iff covers even, Option.map_eq_some_iff]
    constructor
    · rintro ⟨name, hname, rfl⟩
      exact ⟨⟨covers, even, (exists_readName?_iff hlen).mp ⟨name, hname⟩⟩, hname, rfl⟩
    · rintro ⟨-, hname, ha⟩
      exact ⟨a.name, hname, ha.symm⟩
  · rw [if_neg h]
    exact iff_of_false nofun fun ⟨begins, _⟩ => h ⟨begins.covers, begins.even⟩

/-- **Bytes are read as some attributes exactly if they begin with a block.** -/
theorem exists_decode?_iff : (∃ a, decode? b = some a) ↔ Begins b := by
  constructor
  · rintro ⟨a, h⟩
    exact (decode?_eq_some_iff.mp h).1
  · rintro ⟨covers, even, name⟩
    obtain ⟨name, hname⟩ := (exists_readName?_iff (by rwa [length_nameIn covers])).mpr name
    rw [decode?_eq, if_pos ⟨covers, even⟩, hname]
    exact ⟨_, rfl⟩

/-- What is read is written again as the block that was there. -/
theorem block_eq_take (h : decode? b = some a) :
    a.block = b.take (extent b) ∧ a.descriptor.length < lengthBound := by
  obtain ⟨begins, told⟩ := decode?_eq_some_iff.mp h
  obtain ⟨unread, hb, -⟩ := block_of_decode? h
  have hunits : 2 * a.nameUnits.length = nameLength b := by
    have even : (nameIn b).length % 2 = 0 := by
      rw [length_nameIn begins.covers]
      exact begins.even
    rw [told.name, ← Utf16.length_toBytes, unitsIn, Utf16.toBytes_ofBytes even,
      length_nameIn begins.covers]
  have hdescriptor : a.descriptor.length = descriptorLength b := by
    rw [told.descriptor, length_descriptorIn begins.covers]
  have hlen : a.block.length = extent b := by
    rw [length_block, hunits, hdescriptor, extent]
  refine ⟨?_, hdescriptor ▸ (wordAt b 8).toNat_lt⟩
  calc a.block = (a.block ++ unread).take a.block.length := List.take_left.symm
    _ = b.take (extent b) := by rw [← hb, hlen]

/-- **It is what they are written as, unless the name is too long.** -/
theorem encode_eq_take_iff (h : decode? b = some a) :
    a.encode = .ok (b.take (extent b)) ↔ (unitsIn b).length ≤ Limits.maxNameUnits := by
  obtain ⟨hblock, hdescriptor⟩ := block_eq_take h
  rw [← (decode?_eq_some_iff.mp h).2.name, ← hblock]
  constructor
  · exact fun hencode => (encode_eq_ok hencode).1
  · exact fun hname => encode_of_within hname hdescriptor

/-- **Attributes are read by their grammar.**  Bytes are read exactly if they hold the descriptor and
the name that they announce, and the name has whole units of which the surrogates stand in pairs; they
are read as what they say, and as nothing else, with the one name that has these units; and that is
written again as the same bytes exactly if the name is no longer than allowed. -/
theorem read_by_grammar (b : Bytes) :
    extent b < UInt64.size ∧
    ((∃ a, decode? b = some a) ↔ Begins b) ∧
    (∀ a, decode? b = some a ↔ Begins b ∧ Says b a) ∧
    ∀ a, decode? b = some a →
      (∀ name, Utf16.encode name = unitsIn b → a.name.getD "" = name) ∧
      (a.encode = .ok (b.take (extent b)) ↔ (unitsIn b).length ≤ Limits.maxNameUnits) := by
  refine ⟨extent_lt b, exists_decode?_iff, fun a => decode?_eq_some_iff, fun a h => ⟨?_, ?_⟩⟩
  · intro name hname
    have hunits := (decode?_eq_some_iff.mp h).2.name
    rw [nameUnits, ← hname] at hunits
    refine Option.some.inj ?_
    rw [← Utf16.decode?_encode, hunits, Utf16.decode?_encode]
  · exact encode_eq_take_iff h

namespace Small

/-- A root, one byte of descriptor, a name of two units, and a byte that belongs to none of them. -/
def faced : Bytes :=
  [0x24, 0, 0, 0, 0x80, 0, 0, 0, 1, 0, 0, 0, 4, 0, 0, 0, 7, 0x3D, 0xD8, 0x00, 0xDE, 9]

/-- What `faced` says. -/
def face : ObjectAttributes :=
  { root := some ⟨0x24, by decide⟩, flags := ⟨0x80⟩, name := some "😀", descriptor := [7] }

theorem unitsIn_faced : unitsIn faced = [0xD83D, 0xDE00] := by decide

theorem begins_faced : Begins faced := by
  refine ⟨by decide, by decide, ?_⟩
  rw [unitsIn_faced]
  exact (Utf16.wellFormed_pair rfl rfl).mpr Utf16.wellFormed_nil

theorem says_faced : Says faced face where
  root := by decide
  rootless := by decide
  flags := by decide
  descriptor := by decide
  name := unitsIn_faced.symm
  nameless := by rw [unitsIn_faced]; decide

end Small

/-- Attributes with a byte behind them are read, and written again without it; cut within the name
they are not read. -/
theorem read_by_grammar_small :
    decode? Small.faced = some Small.face ∧ Small.face.encode = .ok (Small.faced.take 21) ∧
      decode? (Small.faced.take 20) = none := by
  obtain ⟨-, -, hread, hwritten⟩ := read_by_grammar Small.faced
  have hface := (hread Small.face).mpr ⟨Small.begins_faced, Small.says_faced⟩
  refine ⟨hface, ?_, ?_⟩
  · have hname : (unitsIn Small.faced).length ≤ Limits.maxNameUnits := by
      rw [Small.unitsIn_faced]
      decide
    exact ((hwritten Small.face hface).2.mpr hname :)
  · rw [Option.eq_none_iff_forall_ne_some]
    intro a ha
    have hcovers := ((read_by_grammar (Small.faced.take 20)).2.2.1 a).mp ha |>.1.covers
    exact absurd hcovers (by decide)

end ObjectAttributes

end SharedSync
