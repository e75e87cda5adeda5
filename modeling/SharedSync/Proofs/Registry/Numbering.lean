import SharedSync.Authority.Memory
import SharedSync.Proofs.Object.Indices

/-!
# Registry — objects are numbered without gaps

`WellFormed r` ties the three containers of a registry together: object `i` has slot `i` and the
handle of index `firstIndex + i`, handles are found at the position of their object, and names
lead to positions that exist.

* `issue?_eq_some`, `issue?_eq_none_iff`: the next object gets the next number, until the handle
  space ends.
* `WellFormed.insert`: registering the next object keeps the registry well-formed.
* `WellFormed.query_eq`, `WellFormed.query_eq_bare`: a query finds the object with exactly that
  handle.
-/

namespace SharedSync

open Limits (stateBlockBytes)

namespace Registry

/-- The tables of a registry agree: objects are numbered in the order of their making, and both
indices lead to objects. -/
structure WellFormed (r : Registry) : Prop where
  numbered : ∀ (i : Nat) (e : Entry), r.objects[i]? = some e →
    e.slot.number.toNat = i ∧ e.handle.raw.toNat = 4 * (r.firstIndex.toNat + i + 1)
  byHandle : ∀ (raw : UInt32) (i : Nat), r.byHandle[raw]? = some i ↔
    ∃ e : Entry, r.objects[i]? = some e ∧ e.handle.raw = raw
  byName : ∀ (name : String) (i : Nat), r.byName[name]? = some i → i < r.objects.size
  /-- The file holds every object's block. -/
  covered : r.objects.size * stateBlockBytes ≤ r.file.size

/-- A new registry has no objects to keep in order. -/
theorem wellFormed_start (path : Path) (pageSize : PageSize) (firstIndex : UInt32) :
    (start path pageSize firstIndex).WellFormed where
  numbered i e h := by simp [start] at h
  byHandle raw i := by simp [start]
  byName name i h := by simp [start] at h
  covered := by simp [start]

/-! ### Numbers -/

/-- The next object gets the next slot, and the handle of the next index. -/
theorem issue?_eq_some {r : Registry} {slot : Slot} {handle : Handle}
    (h : r.issue? = some (slot, handle)) :
    slot.number.toNat = r.objects.size ∧
      handle.raw.toNat = 4 * (r.firstIndex.toNat + r.objects.size + 1) := by
  unfold issue? at h
  simp only at h
  split at h
  · cases h
  · next hle =>
      have hlt := Nat.not_le.mp hle
      obtain ⟨g, hg, he⟩ := Option.map_eq_some_iff.mp h
      cases he
      have hn : (UInt32.ofNat (r.objects.size + r.firstIndex.toNat)).toNat =
          r.objects.size + r.firstIndex.toNat := UInt32.toNat_ofNat_of_lt' hlt
      have hb : UInt32.ofNat (r.objects.size + r.firstIndex.toNat) < Handle.indexBound :=
        UInt32.not_le.mp fun hle => by rw [Handle.ofIndex?, if_pos hle] at hg; cases hg
      obtain ⟨g', hg', hraw⟩ := Handle.exists_ofIndex? hb
      obtain rfl : g' = handle := Option.some.inj (hg'.symm.trans hg)
      refine ⟨UInt32.toNat_ofNat_of_lt' (Nat.lt_of_le_of_lt (Nat.le_add_right _ _) hlt), ?_⟩
      rw [hraw, hn, Nat.add_comm r.objects.size]

/-- Handles run out when indices do. -/
theorem issue?_eq_none_iff {r : Registry} :
    r.issue? = none ↔ Handle.indexBound.toNat ≤ r.firstIndex.toNat + r.objects.size := by
  unfold issue?
  simp only
  split
  · next hle =>
      simp only [UInt32.size] at hle
      simp only [Handle.indexBound, UInt32.reduceToNat, true_iff]
      omega
  · next hle =>
      have hlt := Nat.not_le.mp hle
      have hn : (UInt32.ofNat (r.objects.size + r.firstIndex.toNat)).toNat =
          r.objects.size + r.firstIndex.toNat := UInt32.toNat_ofNat_of_lt' hlt
      have hb : Handle.indexBound ≤ UInt32.ofNat (r.objects.size + r.firstIndex.toNat) ↔
          Handle.indexBound.toNat ≤ r.firstIndex.toNat + r.objects.size := by
        rw [UInt32.le_iff_toNat_le, hn, Nat.add_comm]
      rw [Option.map_eq_none_iff, ← hb]
      constructor
      · intro h
        refine Classical.not_not.mp fun hlt => ?_
        obtain ⟨g, hg, -⟩ := Handle.exists_ofIndex? (UInt32.not_le.mp hlt)
        rw [hg] at h
        cases h
      · intro h
        rw [Handle.ofIndex?, if_pos h]

variable {r : Registry}

/-- The slot of an object tells its handle. -/
theorem WellFormed.numbered_mem (hr : r.WellFormed) {e : Entry} (he : e ∈ r.objects) :
    e.slot.number.toNat < r.objects.size ∧
      e.handle.raw.toNat = 4 * (r.firstIndex.toNat + e.slot.number.toNat + 1) := by
  obtain ⟨i, hi⟩ := Array.mem_iff_getElem?.mp he
  obtain ⟨hs, hh⟩ := hr.numbered i e hi
  exact ⟨hs ▸ (Array.getElem?_eq_some_iff.mp hi).1, hs.symm ▸ hh⟩

/-- Issued handles are plain. -/
theorem WellFormed.isPlain (hr : r.WellFormed) {e : Entry} (he : e ∈ r.objects) :
    e.handle.IsPlain := by
  rw [Handle.IsPlain, (hr.numbered_mem he).2]
  exact Nat.mul_mod_right 4 _

/-- The index of an object's handle is its slot, counted from the first index. -/
theorem WellFormed.index?_eq (hr : r.WellFormed) {e : Entry} (he : e ∈ r.objects) :
    HandleCache.index? e.handle = some (r.firstIndex.toNat + e.slot.number.toNat) := by
  rw [HandleCache.index?_eq_some_iff, (hr.numbered_mem he).2]
  omega

/-- An object is fixed by its slot. -/
theorem WellFormed.eq_of_slot (hr : r.WellFormed) {e e' : Entry} (he : e ∈ r.objects)
    (he' : e' ∈ r.objects) (h : e.slot = e'.slot) : e = e' := by
  obtain ⟨i, hi⟩ := Array.mem_iff_getElem?.mp he
  obtain ⟨j, hj⟩ := Array.mem_iff_getElem?.mp he'
  have hij : i = j := by
    rw [← (hr.numbered i e hi).1, ← (hr.numbered j e' hj).1, h]
  subst hij
  exact Option.some.inj (hi.symm.trans hj)

/-- An object is fixed by the index of its handle. -/
theorem WellFormed.eq_of_index? (hr : r.WellFormed) {e e' : Entry} (he : e ∈ r.objects)
    (he' : e' ∈ r.objects)
    (h : HandleCache.index? e.handle = HandleCache.index? e'.handle) : e = e' := by
  rw [hr.index?_eq he, hr.index?_eq he', Option.some.injEq] at h
  refine hr.eq_of_slot he he' ?_
  have hn : e.slot.number = e'.slot.number := UInt32.toNat_inj.mp (by omega)
  cases hs : e.slot
  cases hs' : e'.slot
  rw [hs, hs'] at hn
  exact congrArg Slot.mk hn

/-- No two objects share a handle. -/
theorem WellFormed.eq_of_handle (hr : r.WellFormed) {e e' : Entry} (he : e ∈ r.objects)
    (he' : e' ∈ r.objects) (h : e.handle = e'.handle) : e = e' :=
  hr.eq_of_index? he he' (by rw [h])

/-- The file has the block of every object. -/
theorem WellFormed.block_le_size (hr : r.WellFormed) {e : Entry} (he : e ∈ r.objects) :
    e.slot.byteOffset + stateBlockBytes ≤ r.file.size := by
  have hlt := (hr.numbered_mem he).1
  have hc := hr.covered
  simp only [Slot.byteOffset, stateBlockBytes] at hc ⊢
  omega

/-! ### One more object -/

/-- The next object, once its block is in the file. -/
structure IsNext (r : Registry) (e : Entry) : Prop where
  slot : e.slot.number.toNat = r.objects.size
  handle : e.handle.raw.toNat = 4 * (r.firstIndex.toNat + r.objects.size + 1)
  covered : e.slot.byteOffset + stateBlockBytes ≤ r.file.size

theorem getElem?_insert (r : Registry) (e : Entry) (name : Option String) (i : Nat) :
    (r.insert e name).objects[i]? = if i = r.objects.size then some e else r.objects[i]? :=
  Array.getElem?_push

theorem mem_insert {r : Registry} {e e' : Entry} {name : Option String} :
    e' ∈ (r.insert e name).objects ↔ e' ∈ r.objects ∨ e' = e := Array.mem_push

/-- The next object gets a handle that no other has. -/
theorem IsNext.raw_ne (hr : r.WellFormed) {e e' : Entry} (he : r.IsNext e) (he' : e' ∈ r.objects) :
    e'.handle.raw ≠ e.handle.raw := by
  intro h
  have hlt := hr.numbered_mem he'
  have hn := he.handle
  rw [← h] at hn
  omega

/-- The next object keeps the registry in order. -/
theorem WellFormed.insert (hr : r.WellFormed) {e : Entry} (he : r.IsNext e)
    (name : Option String) : (r.insert e name).WellFormed := by
  have hsize : (r.insert e name).objects.size = r.objects.size + 1 := Array.size_push ..
  have hnone : r.objects[r.objects.size]? = none := Array.getElem?_size
  refine ⟨?numbered, ?byHandle, ?byName, ?covered⟩
  case numbered =>
    intro i e' h
    rw [getElem?_insert] at h
    split at h
    · next hi =>
        cases h
        exact ⟨hi ▸ he.slot, hi ▸ he.handle⟩
    · exact hr.numbered i e' h
  case byHandle =>
    intro raw i
    show (r.byHandle.insert e.handle.raw r.objects.size)[raw]? = some i ↔ _
    rw [Std.HashMap.getElem?_insert]
    by_cases hraw : e.handle.raw = raw
    · rw [if_pos (beq_iff_eq.mpr hraw)]
      constructor
      · intro h
        cases h
        exact ⟨e, by rw [getElem?_insert, if_pos rfl], hraw⟩
      · rintro ⟨e', he', hraw'⟩
        rw [getElem?_insert] at he'
        split at he'
        · next hi => rw [hi]
        -- issued handles are below the new one
        · exact absurd (hraw'.trans hraw.symm) (he.raw_ne hr (Array.mem_of_getElem? he'))
    · rw [if_neg (by rwa [beq_iff_eq]), hr.byHandle]
      refine exists_congr ?_
      intro e'
      rw [getElem?_insert]
      split
      · next hi =>
          subst hi
          rw [hnone]
          exact ⟨fun h => absurd h.1 nofun, fun h => absurd (Option.some.inj h.1 ▸ h.2) hraw⟩
      · exact Iff.rfl
  case byName =>
    intro n i h
    rw [hsize]
    have hold : ∀ j, r.byName[n]? = some j → j < r.objects.size + 1 := fun j hj =>
      Nat.lt_succ_of_lt (hr.byName n j hj)
    cases name with
    | none => exact hold i h
    | some m =>
        have h : (r.byName.insert m r.objects.size)[n]? = some i := h
        rw [Std.HashMap.getElem?_insert] at h
        split at h
        · cases h
          exact Nat.lt_succ_self _
        · exact hold i h
  case covered =>
    rw [hsize]
    have hc := he.covered
    have hs := he.slot
    show (r.objects.size + 1) * stateBlockBytes ≤ r.file.size
    simp only [Slot.byteOffset, stateBlockBytes] at hc ⊢
    omega

/-! ### Looking up -/

/-- A query finds the object of a handle. -/
theorem WellFormed.query_eq (hr : r.WellFormed) {e : Entry} (he : e ∈ r.objects) :
    r.query e.handle = e.reply .success := by
  obtain ⟨i, hi⟩ := Array.mem_iff_getElem?.mp he
  have hb : r.byHandle[e.handle.raw]? = some i := (hr.byHandle _ i).mpr ⟨e, hi, rfl⟩
  rw [query, hb, Option.bind_some, hi]

/-- A query of any other handle finds nothing. -/
theorem WellFormed.query_eq_bare (hr : r.WellFormed) {h : Handle}
    (hn : ∀ e ∈ r.objects, e.handle ≠ h) : r.query h = .bare .invalidHandle := by
  cases hb : r.byHandle[h.raw]? with
  | none => rw [query, hb, Option.bind_none]
  | some i =>
      obtain ⟨e, hi, hraw⟩ := (hr.byHandle h.raw i).mp hb
      refine absurd ?_ (hn e (Array.mem_of_getElem? hi))
      exact Handle.ext_toNat (congrArg UInt32.toNat hraw)

theorem find?_mem {name : Option String} {e : Entry} (h : r.find? name = some e) :
    e ∈ r.objects := by
  unfold find? at h
  obtain ⟨n, -, h⟩ := Option.bind_eq_some_iff.mp h
  obtain ⟨i, -, h⟩ := Option.bind_eq_some_iff.mp h
  exact Array.mem_of_getElem? h

/-- A name that is registered keeps its object when the next object takes another name. -/
theorem find?_insert_of_find? (hr : r.WellFormed) {name : String} {e e' : Entry}
    (hf : r.find? (some name) = some e) {other : Option String} (hne : other ≠ some name) :
    (r.insert e' other).find? (some name) = some e := by
  have hf : (r.byName[name]?).bind (fun i => r.objects[i]?) = some e := hf
  obtain ⟨i, hi, he⟩ := Option.bind_eq_some_iff.mp hf
  have hlt : i ≠ r.objects.size := Nat.ne_of_lt (hr.byName name i hi)
  have hi' : (r.insert e' other).byName[name]? = some i := by
    cases other with
    | none => exact hi
    | some m =>
        have hm : ¬ (m == name) = true := fun h => hne (by rw [beq_iff_eq.mp h])
        show (r.byName.insert m r.objects.size)[name]? = some i
        rw [Std.HashMap.getElem?_insert, if_neg hm, hi]
  show ((r.insert e' other).byName[name]?).bind (fun i => (r.insert e' other).objects[i]?) = _
  rw [hi', Option.bind_some, getElem?_insert, if_neg hlt, he]

/-- The next object is found under the name it takes. -/
theorem find?_insert_self (r : Registry) (e : Entry) (name : String) :
    (r.insert e (some name)).find? (some name) = some e := by
  show ((r.byName.insert name r.objects.size)[name]?).bind
    (fun i => (r.insert e (some name)).objects[i]?) = _
  rw [Std.HashMap.getElem?_insert_self, Option.bind_some, getElem?_insert, if_pos rfl]

end Registry

end SharedSync
