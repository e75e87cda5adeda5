import SharedSync.Limits
import SharedSync.Text

/-!
# Objects — handles, kinds and slots

How an object is named: by its handle within a process, by its slot within the backing file.
-/

namespace SharedSync

/-! ### Handles

A handle names an object within a process.  The authority numbers its handle table from zero and
issues the entry at index `i` as `(i + 1) · 4`; the two low bits are reserved and carry nothing.

* `index?_ofIndex?`: the index of an issued handle is the index it was issued for. -/

/-- The name of an object within a process; never zero. -/
structure Handle where
  raw : UInt32
  raw_ne_zero : raw ≠ 0
deriving DecidableEq

namespace Handle

/-- A handle field read; zero names nothing. -/
def ofRaw? (raw : UInt32) : Option Handle :=
  if h : raw ≠ 0 then some ⟨raw, h⟩ else none

/-- The raw value of a handle field, where zero stands for no handle. -/
def rawOr0 (handle : Option Handle) : UInt32 := (handle.map Handle.raw).getD 0

/-- The table index of a handle; handles below 4 have none. -/
def index? (h : Handle) : Option UInt32 :=
  if h.raw >>> 2 = 0 then none else some ((h.raw >>> 2) - 1)

/-- The number of indices that a handle can express: `2 ^ 30 - 1`. -/
def indexBound : UInt32 := 0x3FFFFFFF

/-- The handle issued for a table index. -/
def ofIndex? (index : UInt32) : Option Handle :=
  if indexBound ≤ index then none else ofRaw? ((index + 1) <<< 2)

instance : ToString Handle := ⟨fun h => Text.marked 4 h.raw.toNat⟩

/-- Every handle is read back from its raw value. -/
theorem ofRaw?_raw (h : Handle) : ofRaw? h.raw = some h := dif_pos h.raw_ne_zero

/-- A handle field written and read is as it was. -/
theorem ofRaw?_rawOr0 (h : Option Handle) : ofRaw? (rawOr0 h) = h := by
  cases h with
  | none => rfl
  | some h => exact ofRaw?_raw h

/-- A handle field read and written is as it was. -/
theorem rawOr0_ofRaw? (raw : UInt32) : rawOr0 (ofRaw? raw) = raw := by
  by_cases h : raw ≠ 0
  · rw [ofRaw?, dif_pos h]
    rfl
  · rw [ofRaw?, dif_neg h]
    exact (Decidable.not_not.mp h).symm

theorem toNat_lt_of_lt_indexBound {index : UInt32} (h : index < indexBound) :
    index.toNat < 0x3FFFFFFF := by
  simpa [indexBound] using UInt32.lt_iff_toNat_lt.mp h

/-- Below the bound, no bit is shifted out. -/
theorem toNat_shifted {index : UInt32} (h : index < indexBound) :
    ((index + 1) <<< 2).toNat = 4 * (index.toNat + 1) := by
  have hi := toNat_lt_of_lt_indexBound h
  have ha : (index + 1).toNat = index.toNat + 1 := by
    rw [UInt32.toNat_add]
    exact Nat.mod_eq_of_lt (by simp only [UInt32.reduceToNat]; omega)
  rw [UInt32.toNat_shiftLeft, ha, Nat.shiftLeft_eq]
  simp only [UInt32.reduceToNat, Nat.reduceMod, Nat.reducePow]
  omega

/-- An index within the bound is issued as four times its successor. -/
theorem exists_ofIndex? {index : UInt32} (h : index < indexBound) :
    ∃ handle, ofIndex? index = some handle ∧ handle.raw.toNat = 4 * (index.toNat + 1) := by
  have hn : (index + 1) <<< 2 ≠ 0 := fun he => by
    have hs := toNat_shifted h
    rw [he] at hs
    simp only [UInt32.reduceToNat] at hs
    omega
  refine ⟨⟨(index + 1) <<< 2, hn⟩, ?_, toNat_shifted h⟩
  rw [ofIndex?, if_neg (UInt32.not_le.mpr h), ofRaw?, dif_pos hn]

/-- The index of an issued handle is the index it was issued for. -/
theorem index?_ofIndex? {index : UInt32} {handle : Handle} (h : ofIndex? index = some handle) :
    handle.index? = some index := by
  by_cases hi : indexBound ≤ index
  · rw [ofIndex?, if_pos hi] at h
    cases h
  · have hlt : index < indexBound := UInt32.not_le.mp hi
    obtain ⟨g, hg, hraw⟩ := exists_ofIndex? hlt
    obtain rfl : g = handle := Option.some.inj (hg.symm.trans h)
    have hb := toNat_lt_of_lt_indexBound hlt
    have hshift : (g.raw >>> 2).toNat = index.toNat + 1 := by
      rw [UInt32.toNat_shiftRight, hraw, Nat.shiftRight_eq_div_pow]
      simp only [UInt32.reduceToNat, Nat.reduceMod, Nat.reducePow]
      omega
    have hne : g.raw >>> 2 ≠ 0 := fun he => by
      rw [he] at hshift
      simp only [UInt32.reduceToNat] at hshift
      omega
    rw [index?, if_neg hne]
    refine congrArg some (UInt32.toNat_inj.mp ?_)
    rw [UInt32.toNat_sub, hshift]
    simp only [UInt32.reduceToNat]
    omega

end Handle

/-! ### Kinds and slots

The one kind of object is the semaphore; its tag is 1, and 0 stands for no object.  A slot is the
position of an object's two words within the backing file, in blocks of eight bytes. -/

/-- The kinds of objects. -/
inductive ObjectKind where
  | semaphore
deriving DecidableEq, Repr

namespace ObjectKind

/-- The tag in records and on the wire. -/
def tag : ObjectKind → UInt32
  | semaphore => 1

/-- The kind of a tag, if it is one. -/
def ofTag? (tag : UInt32) : Option ObjectKind := if tag = 1 then some semaphore else none

instance : ToString ObjectKind := ⟨fun | semaphore => "semaphore"⟩

/-- A kind is read back from its tag. -/
theorem ofTag?_tag (kind : ObjectKind) : ofTag? kind.tag = some kind := by cases kind; rfl

end ObjectKind

/-- The position of an object's state in the backing file. -/
structure Slot where
  number : UInt32
deriving DecidableEq, Repr

namespace Slot

/-- Where the slot's block starts in the backing file. -/
def byteOffset (s : Slot) : Nat := s.number.toNat * Limits.stateBlockBytes

instance : ToString Slot := ⟨fun s => toString s.number⟩

/-- No two slots share a block. -/
theorem byteOffset_inj {s t : Slot} (h : s.byteOffset = t.byteOffset) : s = t := by
  cases s; cases t
  simp only [byteOffset, Limits.stateBlockBytes] at h
  exact congrArg Slot.mk (UInt32.toNat_inj.mp (by omega))

end Slot

end SharedSync
