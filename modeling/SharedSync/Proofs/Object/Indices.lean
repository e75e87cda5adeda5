import SharedSync.Object.Handle
import SharedSync.HandleCache

/-!
# Objects — handles with one index

The index of a handle is its raw value without the two reserved bits, less one.  So a handle is
fixed by its index and its reserved bits, and among handles without reserved bits (`IsPlain`), as
authorities issue them, no two share an index.
-/

namespace SharedSync

namespace Handle

/-- The two reserved bits are clear. -/
def IsPlain (h : Handle) : Prop := h.raw.toNat % 4 = 0

instance (h : Handle) : Decidable h.IsPlain := inferInstanceAs (Decidable (_ = _))

theorem ext_toNat {g h : Handle} (e : g.raw.toNat = h.raw.toNat) : g = h := by
  cases g; cases h
  simp only [Handle.mk.injEq]
  exact UInt32.toNat_inj.mp e

theorem toNat_shifted_raw (h : Handle) : (h.raw >>> 2).toNat = h.raw.toNat / 4 := by
  rw [UInt32.toNat_shiftRight, Nat.shiftRight_eq_div_pow]
  rfl

/-- The index of a handle, as a number: a quarter of its value, less one. -/
theorem index?_eq_some_iff {h : Handle} {i : UInt32} :
    h.index? = some i ↔ h.raw.toNat / 4 = i.toNat + 1 := by
  have hs := toNat_shifted_raw h
  have hi := i.toNat_lt
  have hr := h.raw.toNat_lt
  unfold index?
  split
  · next he =>
      rw [he] at hs
      simp only [UInt32.reduceToNat] at hs
      simp only [reduceCtorEq, false_iff]
      omega
  · next he =>
      have hne : (h.raw >>> 2).toNat ≠ 0 := fun e => he (UInt32.toNat_inj.mp e)
      rw [Option.some.injEq, ← UInt32.toNat_inj, UInt32.toNat_sub]
      simp only [UInt32.reduceToNat]
      omega

/-- The plain handle of index zero. -/
def first : Handle := ⟨4, by decide⟩

end Handle

namespace HandleCache

theorem index?_eq_some_iff {h : Handle} {i : Nat} :
    index? h = some i ↔ h.raw.toNat / 4 = i + 1 := by
  have hr := h.raw.toNat_lt
  rw [index?, Option.map_eq_some_iff]
  constructor
  · rintro ⟨j, hj, rfl⟩
    exact Handle.index?_eq_some_iff.mp hj
  · intro hi
    have hlt : i < 0x100000000 := by omega
    refine ⟨UInt32.ofNat i, ?_, UInt32.toNat_ofNat_of_lt' hlt⟩
    rw [Handle.index?_eq_some_iff, UInt32.toNat_ofNat_of_lt' hlt, hi]

/-- Plain handles with one index are one handle. -/
theorem eq_of_index?_eq {g h : Handle} {i : Nat} (hg : index? g = some i) (hh : index? h = some i)
    (pg : g.IsPlain) (ph : h.IsPlain) : g = h := by
  rw [index?_eq_some_iff] at hg hh
  unfold Handle.IsPlain at pg ph
  exact Handle.ext_toNat (by omega)

end HandleCache

end SharedSync
