import SharedSync.Proofs.Wire.Limits

/-!
# Wire — the payloads that are read as a create request

A payload `b` *spells* the request `r` when it is `r`'s payload, but for bytes at the end of the
block of attributes that no attribute accounts for (`Spells b r unread`).  A reader that knows the
length of the block does not miss them, nor does it ask whether a name is longer than a writer
would make it.

* `decode?_eq_some_iff`: a payload is read as a request exactly if it spells it.
* `Spells.encode_eq_ok_iff`: a spelling is what its request encodes to exactly if it leaves no byte
  unread and the name is no longer than allowed.
* `canonical_iff`: the two together.
* `canonical_fails`: so a request may have many payloads, and one that is read may have none.
-/

namespace SharedSync

namespace ObjectAttributes

variable {a : ObjectAttributes} {src bs : Bytes}

/-! ### Attributes -/

/-- A name that was read has these bytes, and is not empty. -/
theorem readName?_eq_some {name : Option String} (even : bs.length % 2 = 0)
    (h : readName? bs = some name) :
    bs = Utf16.toBytes (Utf16.encode (name.getD "")) ∧
      name.filter (fun name => !name.isEmpty) = name := by
  unfold readName? at h
  split at h
  · next hempty =>
      cases h
      exact ⟨List.isEmpty_iff.mp hempty, rfl⟩
  · next hne =>
      obtain ⟨s, hs, rfl⟩ := Option.map_eq_some_iff.mp h
      have hunits := Utf16.encode_of_decode? hs
      have hbytes : bs = Utf16.toBytes (Utf16.encode s) := by
        rw [hunits, Utf16.toBytes_ofBytes even]
      have hs : s.isEmpty = false := by
        rw [← Bool.not_eq_true, String.isEmpty_iff]
        rintro rfl
        exact hne (List.isEmpty_iff.mpr hbytes)
      refine ⟨hbytes, ?_⟩
      simp only [Option.filter, hs, Bool.not_false, if_true]

/-- **What is read as attributes is their block**, and bytes behind it. -/
theorem block_of_decode? (h : decode? src = some a) :
    ∃ unread, src = a.block ++ unread ∧ a.normal = a := by
  simp only [decode?, Option.bind_eq_bind, Option.bind_eq_some_iff, Prod.exists] at h
  obtain ⟨root, c₁, h₁, flags, c₂, h₂, descriptorLength, c₃, h₃, nameLength, c₄, h₄, h⟩ := h
  split at h
  · cases h
  · next heven =>
      simp only [Option.bind_eq_some_iff, Prod.exists] at h
      obtain ⟨descriptor, c₅, h₅, nameBytes, c₆, h₆, name, hname, h⟩ := h
      cases h
      obtain ⟨hdescriptor, hdl⟩ := Cursor.rest_of_take? h₅
      obtain ⟨hrest, hnl⟩ := Cursor.rest_of_take? h₆
      obtain ⟨rfl, hnormal⟩ := readName?_eq_some (hnl ▸ Decidable.not_not.mp heven) hname
      refine ⟨c₆.rest, ?_, by rw [normal, hnormal]⟩
      rw [Utf16.length_toBytes] at hnl
      -- each number that was read is the one that the block has there
      have hroot := Handle.rawOr0_ofRaw? root
      have hd : UInt32.ofNat descriptor.length = descriptorLength := by
        rw [hdl, UInt32.ofNat_toNat]
      have hn : UInt32.ofNat (2 * (Utf16.encode (name.getD "")).length) = nameLength := by
        rw [hnl, UInt32.ofNat_toNat]
      calc src = Words.le32 root ++ (Words.le32 flags ++ (Words.le32 descriptorLength ++
            (Words.le32 nameLength ++ (descriptor ++
              (Utf16.toBytes (Utf16.encode (name.getD "")) ++ c₆.rest))))) := by
            rw [← hrest, ← hdescriptor, ← Cursor.rest_of_word? h₄, ← Cursor.rest_of_word? h₃,
              ← Cursor.rest_of_word? h₂, ← Cursor.rest_of_word? h₁, Cursor.rest_ofBytes]
        _ = _ := by simp only [block, nameUnits, hroot, hd, hn, List.append_assoc]

end ObjectAttributes

namespace CreateRequest

open ObjectAttributes (lengthBound)

variable {r : CreateRequest} {b unread : Bytes}

/-! ### Requests -/

/-- The payload is read as the request; `unread` are the bytes of the block that are left over. -/
structure Spells (b : Bytes) (r : CreateRequest) (unread : Bytes) : Prop where
  payload : b = r.front (r.block.length + unread.length) ++ (r.block ++ unread)
  fits : r.block.length + unread.length < lengthBound
  /-- No name is empty. -/
  normal : r.normal = r
  /-- Without a block, nothing is left over. -/
  absent : r.attributes = none → unread = []

theorem Spells.decode?_eq (h : Spells b r unread) : decode? b = some r := by
  rw [h.payload, decode?_front h.fits h.absent, h.normal]

/-- What is read as the attributes of a request is its block, and bytes behind it. -/
theorem block_of_readAttributes? {length : Nat} {c c' : Cursor}
    (h : readAttributes? length c = some (r.attributes, c')) :
    ∃ unread, c.rest = r.block ++ unread ++ c'.rest ∧ length = r.block.length + unread.length ∧
      r.normal = r ∧ (r.attributes = none → unread = []) := by
  unfold readAttributes? at h
  split at h
  · next hlength =>
      obtain ⟨hr, rfl⟩ := Prod.mk.inj (Option.some.inj h)
      have hnone := hr.symm
      refine ⟨[], ?_, ?_, ?_, fun _ => rfl⟩
      · rw [block_of_none hnone]
        rfl
      · rw [block_of_none hnone, hlength]
        rfl
      · rw [normal, hnone, Option.map_none, ← hnone]
  · simp only [Option.bind_eq_bind, Option.bind_eq_some_iff, Prod.exists] at h
    obtain ⟨found, c₁, ht, a, ha, h⟩ := h
    obtain ⟨hr, rfl⟩ := Prod.mk.inj (Option.some.inj h)
    have hsome := hr.symm
    obtain ⟨hrest, hlength⟩ := Cursor.rest_of_take? ht
    obtain ⟨unread, rfl, hnormal⟩ := ObjectAttributes.block_of_decode? ha
    refine ⟨unread, ?_, ?_, ?_, ?_⟩
    · rw [block_of_some hsome, hrest]
    · rw [block_of_some hsome, ← hlength, List.length_append]
    · rw [normal, hsome, Option.map_some, hnormal, ← hsome]
    · intro hnone
      rw [hsome] at hnone
      cases hnone

/-- What is read as a request spells it. -/
theorem exists_spells (h : decode? b = some r) : ∃ unread, Spells b r unread := by
  simp only [decode?, Option.bind_eq_bind, Option.bind_eq_some_iff, Prod.exists] at h
  obtain ⟨type, c₁, h₁, access, c₂, h₂, low, c₃, h₃, high, c₄, h₄, length, c₅, h₅, attributes, c₆,
    h₆, h⟩ := h
  split at h
  · cases h
  · next hdone =>
      obtain rfl := Option.some.inj h
      obtain ⟨unread, hblock, hlength, hnormal, habsent⟩ :=
        @block_of_readAttributes? ⟨type, ⟨access⟩, low, high, attributes⟩ _ _ _ h₆
      have hend : c₆.rest = [] := by
        rw [← List.length_eq_zero_iff, ← Cursor.remaining_eq]
        exact Decidable.not_not.mp hdone
      rw [hend, List.append_nil] at hblock
      refine ⟨unread, ?_, hlength ▸ length.toNat_lt, hnormal, habsent⟩
      calc b = Words.le32 type ++ (Words.le32 access ++ (Words.leInt32 low ++ (Words.leInt32 high ++
            (Words.le32 length ++ c₅.rest)))) := by
            rw [← Cursor.rest_of_word? h₅, ← Cursor.rest_of_signed? h₄,
              ← Cursor.rest_of_signed? h₃, ← Cursor.rest_of_word? h₂, ← Cursor.rest_of_word? h₁,
              Cursor.rest_ofBytes]
        _ = _ := by
            rw [hblock]
            simp only [front, ← hlength, UInt32.ofNat_toNat, List.append_assoc]

/-- **A payload is read as a request exactly if it spells it.** -/
theorem decode?_eq_some_iff : decode? b = some r ↔ ∃ unread, Spells b r unread :=
  ⟨exists_spells, fun ⟨_, h⟩ => h.decode?_eq⟩

/-! ### Which spelling a writer chooses -/

/-- The attributes keep the limit that holds however they travel. -/
def Valid (r : CreateRequest) : Prop := ∀ a, r.attributes = some a → a.validate = .ok ()

/-- A valid request has its payload, if its block is not too long for a length field. -/
theorem encode_of_valid (valid : r.Valid) (small : r.block.length < lengthBound) :
    r.encode = .ok (r.front r.block.length ++ r.block) := by
  refine encode_eq_ok_iff.mpr ⟨?_, rfl⟩
  intro a fault ha exceeds
  have name := ObjectAttributes.validate_eq_ok_iff.mp (valid a ha)
  rw [block_of_some ha] at small
  rcases ObjectAttributes.exists_exceeds_iff.mp ⟨fault, exceeds⟩ with long | large | large
  · omega
  · rw [ObjectAttributes.length_block] at small
    omega
  · omega

theorem Spells.encode_of_valid (h : Spells b r unread) (valid : r.Valid) :
    r.encode = .ok (r.front r.block.length ++ r.block) :=
  CreateRequest.encode_of_valid valid (Nat.lt_of_le_of_lt (Nat.le_add_right ..) h.fits)

theorem valid_of_encode {bytes : Bytes} (h : r.encode = .ok bytes) : r.Valid := by
  intro a ha
  have within := (encode_eq_ok_iff.mp h).1 a
  rw [ObjectAttributes.validate_eq_ok_iff]
  refine Nat.not_lt.mp fun long => within _ ha (.name long)

/-- **A spelling is what its request encodes to** exactly if it leaves no byte unread and the request
is valid. -/
theorem Spells.encode_eq_ok_iff (h : Spells b r unread) :
    r.encode = .ok b ↔ unread = [] ∧ r.Valid := by
  constructor
  · intro he
    have valid := valid_of_encode he
    refine ⟨?_, valid⟩
    have hb : b = r.front r.block.length ++ r.block :=
      Except.ok.inj (he.symm.trans (h.encode_of_valid valid))
    have hlen := congrArg List.length (h.payload.symm.trans hb)
    simp only [front, List.length_append, Words.length_le32, Words.length_leInt32] at hlen
    exact List.length_eq_zero_iff.mp (by omega)
  · rintro ⟨rfl, valid⟩
    rw [h.encode_of_valid valid, h.payload, List.append_nil]
    rfl

/-- **What is read, and what of it is canonical.**  A payload is read as a request exactly if it
spells it; and then it is the payload that the request encodes to exactly if it leaves no byte unread
and the request is valid. -/
theorem canonical_iff (b : Bytes) (r : CreateRequest) :
    (decode? b = some r ↔ ∃ unread, Spells b r unread) ∧
    ∀ unread, Spells b r unread → (r.encode = .ok b ↔ unread = [] ∧ r.Valid) :=
  ⟨decode?_eq_some_iff, fun _ => Spells.encode_eq_ok_iff⟩

/-- The payload of a request without unread bytes. -/
theorem canonical_iff_small : ∃ b, decode? b = some Small.named ∧ Small.named.encode = .ok b := by
  have hunits : Small.attributes.nameUnits = [0, 0xD83D, 0xDE00] := rfl
  have hblock : Small.named.block.length = 23 := by
    rw [block_of_some rfl, ObjectAttributes.length_block, hunits]
    rfl
  have spells : Spells (Small.named.front 23 ++ (Small.named.block ++ [])) Small.named [] := by
    refine ⟨by rw [hblock]; rfl, by rw [hblock]; decide, rfl, fun _ => rfl⟩
  have valid : Small.named.Valid := by
    rintro a ⟨⟩
    rw [ObjectAttributes.validate_eq_ok_iff, hunits]
    decide
  exact ⟨_, (canonical_iff _ _).1.mpr ⟨[], spells⟩, ((canonical_iff _ _).2 [] spells).mpr ⟨rfl, valid⟩⟩

namespace Small

/-- Empty attributes in a block of seventeen bytes. -/
def padded : Bytes :=
  [1, 0, 0, 0, 0, 0, 0, 0, 1, 0, 0, 0, 2, 0, 0, 0, 17, 0, 0, 0,
    0, 0, 0, 0, 0, 0, 0, 0, 0, 0, 0, 0, 0, 0, 0, 0, 42]

/-- What `padded` is read as. -/
def unnamed : CreateRequest := { low := 1, high := 2, attributes := some {} }

/-- A name of one unit more than is allowed. -/
def overlong : CreateRequest :=
  { attributes := some { name := some (String.ofList (List.replicate 32768 'x')) } }

theorem length_units (n : Nat) :
    (ObjectAttributes.nameUnits { name := some (String.ofList (List.replicate n 'x')) }).length =
      n := by
  simp only [ObjectAttributes.nameUnits, Option.getD_some, Utf16.encode, String.toList_ofList]
  induction n with
  | zero => rfl
  | succ n ih =>
      rw [List.replicate_succ, List.flatMap_cons, List.length_append, ih, Nat.add_comm]
      rfl

end Small

/-- A byte that nothing accounts for is accepted within the block, so that one request has two
payloads; and so is a name that is too long, so that a request is read that no payload is written
for. -/
theorem canonical_fails :
    (decode? Small.padded = some Small.unnamed ∧ Small.unnamed.encode ≠ .ok Small.padded) ∧
    ∃ b, decode? b = some Small.overlong ∧ ¬ Small.overlong.Valid ∧
      ∀ bytes, Small.overlong.encode ≠ .ok bytes := by
  have spells : Spells Small.padded Small.unnamed [42] := ⟨rfl, by decide, rfl, nofun⟩
  refine ⟨⟨spells.decode?_eq, fun h => List.cons_ne_nil 42 [] (spells.encode_eq_ok_iff.mp h).1⟩, ?_⟩
  have hunits := Small.length_units 32768
  have hblock : Small.overlong.block.length = 65552 := by
    rw [block_of_some rfl, ObjectAttributes.length_block, hunits]
    rfl
  have invalid : ¬ Small.overlong.Valid := by
    intro valid
    have h := ObjectAttributes.validate_eq_ok_iff.mp (valid _ rfl)
    rw [hunits] at h
    exact absurd h (by decide)
  have hname : (String.ofList (List.replicate 32768 'x')).isEmpty = false := by
    rw [← Bool.not_eq_true, String.isEmpty_iff, ← String.toList_eq_nil_iff, String.toList_ofList,
      List.replicate_eq_nil_iff]
    decide
  have hnormal : Small.overlong.normal = Small.overlong := by
    simp only [normal, Small.overlong, Option.map_some, ObjectAttributes.normal, Option.filter,
      hname, Bool.not_false, if_true]
  have hread := @decode?_front Small.overlong [] (by rw [hblock]; decide) fun _ => rfl
  rw [hnormal] at hread
  exact ⟨_, hread, invalid, fun bytes h => invalid (valid_of_encode h)⟩

end CreateRequest

end SharedSync
