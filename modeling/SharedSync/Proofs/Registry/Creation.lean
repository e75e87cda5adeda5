import SharedSync.Proofs.Files.Words
import SharedSync.Proofs.Registry.Numbering

/-!
# Registry — what a create request does

`Creation r request` lists the five ways in which a create request can end, with all that the
registry leaves in each.  Everything that later modules say about creations is read off this list.

* `creation_create`: every request ends in one of these ways.
* `Creation.wellFormed`, `Creation.extended`: a registry stays well-formed and keeps its objects
  and names.
* `WellFormed.word_eq_of_keepsBelow`: the objects that were there keep their words.
-/

namespace SharedSync

open Limits (stateBlockBytes)

theorem ObjectKind.eq_semaphore (kind : ObjectKind) : kind = .semaphore := by cases kind; rfl

namespace FileContents

/-- `g` has all of `f`, and the bytes of `f` in front of `bound` are the same. -/
structure KeepsBelow (bound : Nat) (f g : FileContents) : Prop where
  size_le : f.size ≤ g.size
  byte_eq : ∀ i, i < bound → i < f.size → g.byte i = f.byte i

variable {bound : Nat} {f g k : FileContents}

theorem KeepsBelow.refl (bound : Nat) (f : FileContents) : KeepsBelow bound f f :=
  ⟨Nat.le_refl _, fun _ _ _ => rfl⟩

theorem KeepsBelow.trans (h : KeepsBelow bound f g) (h' : KeepsBelow bound g k) :
    KeepsBelow bound f k := by
  refine ⟨Nat.le_trans h.size_le h'.size_le, ?_⟩
  intro i hi hf
  rw [h'.byte_eq i hi (Nat.lt_of_lt_of_le hf h.size_le), h.byte_eq i hi hf]

theorem keepsBelow_write (f : FileContents) (offset : Nat) (data : Bytes) :
    KeepsBelow offset f (f.write offset data) :=
  ⟨size_le_size_write f offset data, fun _ ho hi => byte_write_of_lt data ho hi⟩

/-- Words in front of the bound are as they were. -/
theorem KeepsBelow.word_eq (h : KeepsBelow bound f g) {offset : Nat} (hb : offset + 4 ≤ bound)
    (hs : offset + 4 ≤ f.size) : g.word offset = f.word offset :=
  word_congr fun i hi => h.byte_eq _ (by omega) (by omega)

end FileContents

namespace Registry

open FileContents (KeepsBelow)

variable {r : Registry} {slot : Slot} {request : CreateRequest} {fault : Option FileFault}

/-! ### Writing a block -/

/-- The length for a slot has room for its block. -/
theorem block_le_lengthFor (r : Registry) (slot : Slot) :
    slot.byteOffset + stateBlockBytes ≤ r.lengthFor slot := by
  have hpos : 0 < r.pageSize.bytes := Nat.lt_of_lt_of_le (by decide) r.pageSize.holdsBlock
  have hd := Nat.div_add_mod (slot.byteOffset + stateBlockBytes + r.pageSize.bytes - 1)
    r.pageSize.bytes
  have hm := Nat.mod_lt (slot.byteOffset + stateBlockBytes + r.pageSize.bytes - 1) hpos
  rw [lengthFor, Nat.mul_comm]
  omega

/-- Growing keeps what the file holds. -/
theorem keepsBelow_grown (r : Registry) (slot : Slot) (bound : Nat) :
    KeepsBelow bound r.file (writeBlock.grown r slot) := by
  unfold writeBlock.grown
  split
  · next h =>
      have hle := Nat.le_of_lt h
      exact ⟨hle, fun _ _ hi => FileContents.byte_resize_of_lt hi hle⟩
  · exact .refl _ _

theorem size_grown (r : Registry) (slot : Slot) :
    (writeBlock.grown r slot).size = max r.file.size (r.lengthFor slot) := by
  unfold writeBlock.grown
  split
  · next h => exact (Nat.max_eq_right (Nat.le_of_lt h)).symm
  · next h => exact (Nat.max_eq_left (Nat.not_lt.mp h)).symm

theorem lengthFor_le_size_grown (r : Registry) (slot : Slot) :
    r.lengthFor slot ≤ (writeBlock.grown r slot).size := by
  rw [size_grown]
  exact Nat.le_max_right _ _

/-- However writing a block ends, the bytes in front of it are kept. -/
theorem keepsBelow_writeBlock (r : Registry) (slot : Slot) (request : CreateRequest)
    (fault : Option FileFault) :
    KeepsBelow slot.byteOffset r.file (r.writeBlock slot request fault).2 := by
  have hgrown := keepsBelow_grown r slot slot.byteOffset
  rcases fault with - | error | error | ⟨count, error⟩
  · exact hgrown.trans (FileContents.keepsBelow_write _ _ _)
  · exact .refl _ _
  · by_cases hs : r.file.size < r.lengthFor slot
    · simp only [writeBlock, if_pos hs]
      exact .refl _ _
    · simp only [writeBlock, if_neg hs]
      exact FileContents.keepsBelow_write _ _ _
  · exact hgrown.trans (FileContents.keepsBelow_write _ _ _)

/-- The file holds the request's two values in the slot's block. -/
structure Holds (file : FileContents) (slot : Slot) (request : CreateRequest) : Prop where
  covered : slot.byteOffset + stateBlockBytes ≤ file.size
  low : file.word slot.byteOffset = request.low.toUInt32
  high : file.word (slot.byteOffset + 4) = request.high.toUInt32

theorem holds_write {f : FileContents} (h : slot.byteOffset + stateBlockBytes ≤ f.size) :
    Holds (f.write slot.byteOffset (writeBlock.block request)) slot request := by
  obtain ⟨hl, hh⟩ := FileContents.word_write_append f slot.byteOffset request.low.toUInt32
    request.high.toUInt32
  exact ⟨Nat.le_trans h (FileContents.size_le_size_write _ _ _), hl, hh⟩

/-- A block is there if writing it did not fail. -/
theorem holds_writeBlock {file : FileContents}
    (h : r.writeBlock slot request fault = (.ok (), file)) : Holds file slot request := by
  have hlen := block_le_lengthFor r slot
  have hgrown := Nat.le_trans hlen (lengthFor_le_size_grown r slot)
  rcases fault with - | error | error | ⟨count, error⟩
  · cases h
    exact holds_write hgrown
  · cases h
  · by_cases hs : r.file.size < r.lengthFor slot
    · simp only [writeBlock, if_pos hs] at h
      cases h
    · simp only [writeBlock, if_neg hs] at h
      cases h
      exact holds_write (Nat.le_trans hlen (Nat.not_lt.mp hs))
  · cases h

/-! ### The five ways -/

/-- The request is for a semaphore with bounds that it may have. -/
def IsValid (request : CreateRequest) : Prop :=
  ObjectKind.ofTag? request.type = some .semaphore ∧ boundsOk request = true

/-- The ways in which a create request can end. -/
inductive Creation (r : Registry) (request : CreateRequest) :
    Except SyncError Reply → Registry → Prop where
  | invalid (h : ¬ IsValid request) : Creation r request (.ok (.bare .invalidParameter)) r
  | opened {e} (valid : IsValid request) (found : r.find? (nameOf request) = some e) :
      Creation r request (.ok (e.reply .objectNameExists)) r
  | exhausted (valid : IsValid request) (new : r.find? (nameOf request) = none)
      (full : r.issue? = none) : Creation r request (.ok (.bare .noMemory)) r
  | failed {error file} (kept : KeepsBelow (r.objects.size * stateBlockBytes) r.file file) :
      Creation r request (.error error) { r with file }
  | made {e file} (valid : IsValid request) (new : r.find? (nameOf request) = none)
      (next : IsNext { r with file } e)
      (kept : KeepsBelow (r.objects.size * stateBlockBytes) r.file file)
      (holds : Holds file e.slot request) :
      Creation r request (.ok (e.reply .success)) (insert { r with file } e (nameOf request))

/-- Registering a valid request for a new name is a creation. -/
theorem creation_register (hn : r.find? (nameOf request) = none) (hv : IsValid request) :
    Creation r request (r.register request .semaphore fault).result
      (r.register request .semaphore fault).state := by
  unfold register
  cases hi : r.issue? with
  | none => exact .exhausted hv hn hi
  | some issued =>
      obtain ⟨slot, handle⟩ := issued
      obtain ⟨hslot, hhandle⟩ := issue?_eq_some hi
      have hoff : slot.byteOffset = r.objects.size * stateBlockBytes := by
        rw [Slot.byteOffset, hslot]
      have hkept := hoff ▸ keepsBelow_writeBlock r slot request fault
      rcases hw : r.writeBlock slot request fault with ⟨outcome, file⟩
      rw [hw] at hkept
      simp only [hw]
      cases outcome with
      | error error => exact .failed hkept
      | ok done =>
          have hh := holds_writeBlock hw
          exact .made hv hn ⟨hslot, hhandle, hh.covered⟩ hkept hh

/-- What `create` does is one of the ways of a creation. -/
theorem creation_create (r : Registry) (request : CreateRequest) (fault : Option FileFault) :
    Creation r request (r.create request fault).result (r.create request fault).state := by
  unfold create
  cases hk : ObjectKind.ofTag? request.type with
  | none => exact .invalid fun hv => absurd (hk.symm.trans hv.1) nofun
  | some kind =>
      obtain rfl := ObjectKind.eq_semaphore kind
      by_cases hb : boundsOk request = true
      · have hv : IsValid request := ⟨hk, hb⟩
        simp only [hb, Bool.not_true, Bool.false_eq_true, if_false]
        cases hf : r.find? (nameOf request) with
        | none => exact creation_register hf hv
        | some e =>
            simp only [ObjectKind.eq_semaphore e.kind, ne_eq, not_true_eq_false, if_false]
            exact .opened hv hf
      · simp only [Bool.not_eq_true] at hb
        simp only [hb, Bool.not_false, if_true]
        exact .invalid fun hv => absurd (hb.symm.trans hv.2) nofun

/-! ### What a creation keeps -/

variable {r' : Registry} {result : Except SyncError Reply}

/-- A registry stays in order on any file that is not shorter. -/
theorem WellFormed.with_file (hr : r.WellFormed) {file : FileContents}
    (h : r.file.size ≤ file.size) : WellFormed { r with file } :=
  ⟨hr.numbered, hr.byHandle, hr.byName, Nat.le_trans hr.covered h⟩

/-- Every creation keeps the registry in order. -/
theorem Creation.wellFormed (hr : r.WellFormed) (h : Creation r request result r') :
    r'.WellFormed := by
  cases h with
  | invalid => exact hr
  | opened => exact hr
  | exhausted => exact hr
  | failed kept => exact hr.with_file kept.size_le
  | made _ _ next kept _ => exact (hr.with_file kept.size_le).insert next _

/-- `r'` has the objects of `r`, and their names lead to them. -/
structure Extends (r r' : Registry) : Prop where
  mem : ∀ e ∈ r.objects, e ∈ r'.objects
  find? : ∀ name e, r.find? (some name) = some e → r'.find? (some name) = some e

theorem Extends.refl (r : Registry) : Extends r r := ⟨fun _ h => h, fun _ _ h => h⟩

theorem extends_with_file (r : Registry) (file : FileContents) : Extends r { r with file } :=
  ⟨fun _ h => h, fun _ _ h => h⟩

/-- A new object takes none away. -/
theorem extends_insert (hr : r.WellFormed) {file : FileContents} (hs : r.file.size ≤ file.size)
    {e : Entry} (new : r.find? (nameOf request) = none) :
    Extends r (insert { r with file } e (nameOf request)) := by
  refine ⟨fun _ he => mem_insert.mpr (.inl he), ?_⟩
  intro name e he
  -- the new object has another name, since this one is taken
  refine find?_insert_of_find? (hr.with_file hs) he fun hname => ?_
  rw [hname, he] at new
  cases new

/-- No creation takes an object away. -/
theorem Creation.extended (hr : r.WellFormed) (h : Creation r request result r') :
    Extends r r' := by
  cases h with
  | invalid => exact .refl r
  | opened => exact .refl r
  | exhausted => exact .refl r
  | failed => exact extends_with_file r _
  | made _ new _ kept _ => exact extends_insert hr kept.size_le new

/-- Words of objects are kept with the bytes in front of the next block. -/
theorem WellFormed.word_eq_of_keepsBelow (hr : r.WellFormed) {file : FileContents}
    (h : KeepsBelow (r.objects.size * stateBlockBytes) r.file file) {e : Entry}
    (he : e ∈ r.objects) (word : BlockWord) :
    file.word (e.slot.byteOffset + word.byteOffset) =
      r.file.word (e.slot.byteOffset + word.byteOffset) := by
  have hlt := (hr.numbered_mem he).1
  have hs := hr.block_le_size he
  have hp : word.byteOffset + 4 ≤ stateBlockBytes := by cases word <;> decide
  refine h.word_eq ?_ (by omega)
  simp only [Slot.byteOffset, stateBlockBytes] at hp ⊢
  omega

end Registry

end SharedSync
