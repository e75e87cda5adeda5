import SharedSync.HandleCache
import SharedSync.Proofs.Directory.Elements

/-!
# Cache — a partial map that is written once

`record? c i` is the published record at index `i`: the cache read as a partial map on indices.

* `Addition.record?_eq`: an addition writes its record if the handle's index has none and is within
  the capacity, and changes no other record.
* `Addition.record?_mono`: so a record that was published stays as it is.
* `get?_eq_record?`: a look-up reads the record at the handle's index, whatever the reserved bits
  of the handle are.
-/

namespace SharedSync

namespace Record

variable {α : Type}

@[simp] theorem load_default : (default : Record α).load = none := rfl

theorem load_of_tag_eq_zero {r : Record α} (h : r.tag = 0) : r.load = none := by
  simp [load, h, ObjectKind.ofTag?]

end Record

namespace HandleCache

variable {α : Type}

/-- The published record at an index. -/
def record? (c : HandleCache α) (index : Nat) : Option (ObjectKind × α) :=
  (c.blocks.element index).load

/-- A record is free or published; no writer is at work. -/
structure WellFormed (c : HandleCache α) : Prop where
  blocks : c.blocks.WellFormed
  settled : ∀ i, (c.blocks.element i).tag = 0 ∨
    ∃ kind block, c.blocks.element i = .published kind block

/-- A record can be read just if its tag is not zero. -/
theorem WellFormed.record?_eq_none_iff {c : HandleCache α} (hc : c.WellFormed) (i : Nat) :
    c.record? i = none ↔ (c.blocks.element i).tag = 0 := by
  constructor
  · intro h
    rcases hc.settled i with h₀ | ⟨kind, block, h₁⟩
    · exact h₀
    · rw [record?, h₁, Record.load_published] at h
      cases h
  · exact Record.load_of_tag_eq_zero

/-! ### Looking up -/

/-- A look-up reads the record at the handle's index. -/
theorem get?_eq_record? (c : HandleCache α) (handle : Handle) :
    c.get? handle = (index? handle).bind c.record? := by
  unfold get?
  cases index? handle with
  | none => rfl
  | some i =>
      show (c.blocks.get? i).bind Record.load = ((c.blocks.get? i).getD default).load
      cases c.blocks.get? i with
      | none => exact Record.load_default.symm
      | some r => rfl

/-! ### Adding -/

/-- What an addition may do: nothing but count, or write its record at a free index. -/
inductive Addition (c : HandleCache α) (handle : Handle) (kind : ObjectKind) (block : α) :
    Option (ObjectKind × α) → HandleCache α → Prop where
  | skipped {c'} (beyond : ∀ i, index? handle = some i → c.capacity ≤ i)
      (same : c'.blocks = c.blocks) : Addition c handle kind block none c'
  | published {c'} (i) (index : index? handle = some i) (within : i < c.capacity)
      (free : c.record? i = none)
      (blocks : c'.blocks = (c.blocks.touch i).2.set i (.published kind block)) :
      Addition c handle kind block (some (kind, block)) c'
  | lost {c'} (i) {record} (index : index? handle = some i) (within : i < c.capacity)
      (taken : c.record? i = some record) (blocks : c'.blocks = (c.blocks.touch i).2) :
      Addition c handle kind block (some record) c'

/-- What `add` does is one of the three ways of an addition. -/
theorem addition_add {c : HandleCache α} (hc : c.WellFormed) (handle : Handle)
    (kind : ObjectKind) (block : α) :
    Addition c handle kind block (c.add handle kind block).result
      (c.add handle kind block).state := by
  unfold add
  cases hi : index? handle with
  | none => exact .skipped (fun i h => by rw [hi] at h; cases h) rfl
  | some i =>
      have hr : (c.blocks.touch i).1 = if i < c.capacity then some (c.blocks.element i) else none :=
        Directory.touch_result hc.blocks i
      rcases ht : c.blocks.touch i with ⟨shown, blocks⟩
      rw [ht] at hr
      rcases Nat.lt_or_ge i c.capacity with h | h
      · rw [if_pos h] at hr
        subst hr
        simp only [ht]
        -- a record is free as long as its tag is zero
        by_cases hz : (c.blocks.element i).tag = 0
        · rw [if_pos hz]
          exact .published i hi h ((hc.record?_eq_none_iff i).mpr hz) (by rw [ht])
        · rw [if_neg hz]
          obtain ⟨record, hrec⟩ : ∃ record, c.record? i = some record :=
            Option.ne_none_iff_exists'.mp fun hn => hz ((hc.record?_eq_none_iff i).mp hn)
          rw [show (c.blocks.element i).load = some record from hrec]
          exact .lost i hi h hrec (by rw [ht])
      · rw [if_neg (Nat.not_lt.mpr h)] at hr
        subst hr
        simp only [ht]
        refine .skipped ?_ rfl
        intro j hj
        rw [hi] at hj
        cases hj
        exact h

/-- No addition leaves a record half written. -/
theorem Addition.wellFormed {c c' : HandleCache α} {handle : Handle} {kind : ObjectKind}
    {block : α} {shown : Option (ObjectKind × α)} (hc : c.WellFormed)
    (h : Addition c handle kind block shown c') : c'.WellFormed := by
  cases h with
  | skipped _ same => exact ⟨same ▸ hc.blocks, same ▸ hc.settled⟩
  | published i index within free blocks =>
      have hw := (hc.blocks.touch i).set (by rwa [Directory.capacity_touch]) (.published kind block)
      refine ⟨blocks ▸ hw, ?_⟩
      intro j
      rw [blocks, Directory.element_touch_set hc.blocks within]
      split
      · exact .inr ⟨kind, block, rfl⟩
      · exact hc.settled j
  | lost i index within taken blocks =>
      refine ⟨blocks ▸ hc.blocks.touch i, ?_⟩
      intro j
      rw [blocks, Directory.element_touch hc.blocks]
      exact hc.settled j

/-- **An addition writes one free record.** -/
theorem Addition.record?_eq {c c' : HandleCache α} {handle : Handle} {kind : ObjectKind}
    {block : α} {shown : Option (ObjectKind × α)} (hc : c.WellFormed)
    (h : Addition c handle kind block shown c') (j : Nat) :
    c'.record? j =
      if index? handle = some j ∧ j < c.capacity ∧ c.record? j = none then some (kind, block)
      else c.record? j := by
  cases h with
  | skipped beyond same =>
      rw [if_neg fun h => Nat.not_lt.mpr (beyond j h.1) h.2.1, record?, same, record?]
  | published i index within free blocks =>
      rw [record?, blocks, Directory.element_touch_set hc.blocks within]
      split
      · next hj =>
          rw [hj, if_pos ⟨index, within, free⟩]
          exact Record.load_published kind block
      · next hj =>
          rw [if_neg fun h => hj (Option.some.inj (h.1.symm.trans index)), record?]
  | lost i index within taken blocks =>
      rw [if_neg, record?, blocks, Directory.element_touch hc.blocks, record?]
      rintro ⟨hj, -, hn⟩
      cases Option.some.inj (hj.symm.trans index)
      rw [taken] at hn
      cases hn

/-- **A published record stays.** -/
theorem Addition.record?_mono {c c' : HandleCache α} {handle : Handle} {kind : ObjectKind}
    {block : α} {shown : Option (ObjectKind × α)} (hc : c.WellFormed)
    (h : Addition c handle kind block shown c') {j : Nat} {record : ObjectKind × α}
    (hj : c.record? j = some record) : c'.record? j = some record := by
  rw [h.record?_eq hc, if_neg, hj]
  rintro ⟨-, -, hn⟩
  rw [hn] at hj
  cases hj

/-- Within the capacity, an addition leaves a record at its handle's index. -/
theorem Addition.record?_ne_none {c c' : HandleCache α} {handle : Handle} {kind : ObjectKind}
    {block : α} {shown : Option (ObjectKind × α)} (hc : c.WellFormed)
    (h : Addition c handle kind block shown c') {i : Nat} (hi : index? handle = some i)
    (hlt : i < c.capacity) : c'.record? i ≠ none := by
  rw [h.record?_eq hc]
  by_cases hn : c.record? i = none
  · rw [if_pos ⟨hi, hlt, hn⟩]
    exact Option.some_ne_none _
  · rwa [if_neg fun hnew => hn hnew.2.2]

/-! ### The usual cache -/

/-- A cache of the usual size has one chunk, and free records only. -/
theorem standard_blocks : (standard : HandleCache α).blocks.WellFormed ∧
    ∀ i, (standard : HandleCache α).blocks.element i = default := by
  have hw : Directory.WellFormed (α := Record α)
      ⟨Limits.recordsPerBlock, Array.replicate Limits.cacheBlocks none, 0, 0⟩ :=
    Directory.wellFormed_of_replicate (show 0 < Limits.recordsPerBlock by decide) rfl
  refine ⟨hw.touchChunk 0, ?_⟩
  intro i
  exact (Directory.element_touchChunk hw 0 i).trans (Directory.element_of_replicate rfl i)

theorem wellFormed_standard : (standard : HandleCache α).WellFormed :=
  ⟨standard_blocks.1, fun i => .inl (congrArg Record.tag (standard_blocks.2 i))⟩

theorem capacity_standard : (standard : HandleCache α).capacity =
    Limits.cacheBlocks * Limits.recordsPerBlock := by
  rw [capacity, standard, Directory.capacity_touchChunk, Directory.capacity, Directory.chunkCount]
  simp only [Array.size_replicate]

theorem record?_standard (i : Nat) : (standard : HandleCache α).record? i = none := by
  rw [record?, standard_blocks.2, Record.load_default]

end HandleCache

end SharedSync
