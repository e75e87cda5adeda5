import SharedSync.Proofs.Pool.Requests

/-!
# Pool — slots on pages

The blocks of the slots fill the backing file from its first byte on, eight bytes each, and a page is
a whole number of blocks.  So a block has one page and one place there (`PageSize.Holds`), and two
blocks have no byte in common (`PageSize.apart_of_ne`).

The page directory has `8192 · 1024` entries.  Slots have 32 bits, so that the last block ends at byte
`2 ^ 35`, and pages of 4096 bytes reach just there.

* `endsBeyond_iff`: a request is given up for want of an entry exactly if the directory has none.
* `LaysOut`: where a pool finds the blocks, and which it gives up: those from byte
  `8192 · 1024 · size` on.
* `slots_on_pages`: this holds of a pool whatever it was asked before.
-/

namespace SharedSync

open Limits (stateBlockBytes pageChunks pageChunkLength)

namespace PageSize

variable {size : PageSize} {slot other : Slot}

/-- The block of a slot is on this page, at this place. -/
structure Holds (size : PageSize) (slot : Slot) (page offset : Nat) : Prop where
  start : page * size.bytes + offset = 8 * slot.number.toNat
  aligned : 8 ∣ offset
  /-- The block ends on the page on which it starts. -/
  within : offset + 8 ≤ size.bytes
  /-- The start of the page is the same in machine words, without a carry, -/
  product : (UInt64.ofNat page * UInt64.ofNat size.bytes).toNat = page * size.bytes
  /-- and is an offset that the kernel takes, which is a signed word. -/
  signed : page * size.bytes < 0x8000000000000000

theorem byteOffset_eq (slot : Slot) : slot.byteOffset = 8 * slot.number.toNat := Nat.mul_comm _ _

/-- The last block ends within 32 gibibytes. -/
theorem byteOffset_lt (slot : Slot) : slot.byteOffset < 8 * UInt32.size := by
  rw [byteOffset_eq]
  exact Nat.mul_lt_mul_of_pos_left slot.number.toNat_lt (by decide)

/-- A slot has one page and one place there, and no product on the way overflows. -/
theorem holds_pageOf (size : PageSize) (slot : Slot) :
    size.Holds slot (size.pageOf slot) (slot.byteOffset % size.bytes) := by
  have hlt : size.pageOf slot * size.bytes < 8 * UInt32.size :=
    Nat.lt_of_le_of_lt (Nat.div_mul_le_self _ _) (byteOffset_lt slot)
  constructor
  case start =>
    rw [pageOf, Nat.mul_comm, Nat.div_add_mod, byteOffset_eq]
  case aligned =>
    exact (Nat.dvd_mod_iff size.dvd_bytes).mpr (Nat.dvd_mul_left _ _)
  case within => exact size.offset_le slot
  case product =>
    rw [UInt64.toNat_mul, UInt64.toNat_ofNat', UInt64.toNat_ofNat', ← Nat.mul_mod]
    exact Nat.mod_eq_of_lt (Nat.lt_trans hlt (by decide))
  case signed => exact Nat.lt_trans hlt (by decide)

/-- Two slots have places that do not meet: on different pages, or one behind the other. -/
theorem apart_of_ne (hne : slot ≠ other) {page page' offset offset' : Nat}
    (h : size.Holds slot page offset) (h' : size.Holds other page' offset') :
    page ≠ page' ∨ offset + 8 ≤ offset' ∨ offset' + 8 ≤ offset := by
  refine Decidable.or_iff_not_imp_left.mpr fun hpage => ?_
  obtain rfl := Decidable.not_not.mp hpage
  have hnumbers : slot.number.toNat ≠ other.number.toNat := fun he =>
    hne (Slot.byteOffset_inj (congrArg (· * stateBlockBytes) he))
  have hstart := h.start
  have hstart' := h'.start
  omega

end PageSize

namespace Pool

variable {size : PageSize} {p : Pool} {map : Mapper} {slot : Slot}

/-- Serving slots does not change how many pages there can be. -/
theorem capacity_serve (hp : p.WellFormed) (calls : List Call) :
    (p.serve calls).pages.capacity = p.pages.capacity := by
  induction calls generalizing p with
  | nil => rfl
  | cons call rest ih =>
      exact (ih (hp.block call.map call.slot)).trans
        (showing_block hp call.map call.slot).capacity_eq

/-- The request is given up because the directory has no entry for the page. -/
def EndsBeyond (p : Pool) (map : Mapper) (slot : Slot) : Prop :=
  ∃ given page, .slotBeyondDirectory given page ∈ (p.block map slot).events

/-- A call ends beyond the directory just if the slot's page has no place there. -/
theorem endsBeyond_iff (hp : p.WellFormed) :
    p.EndsBeyond map slot ↔ p.pages.capacity ≤ (p.locate slot).1 := by
  rw [EndsBeyond]
  rcases Nat.lt_or_ge (p.locate slot).1 p.pages.capacity with hlt | hle
  · refine iff_of_false ?_ (Nat.not_le.mpr hlt)
    cases hm : p.mapping? (p.locate slot).1 with
    | some mapping => simp [block_of_mapping? hp hm]
    | none =>
        rw [block_of_unmapped hp hlt hm]
        cases map (p.pageRequest (p.locate slot).1) <;> simp
  · rw [block_of_beyond hp hle]
    exact iff_of_true ⟨_, _, List.mem_singleton_self _⟩ hle

/-- The kernel is asked for nothing but the page. -/
theorem block_congr (hp : p.WellFormed) {map' : Mapper}
    (h : map (p.pageRequest (p.locate slot).1) = map' (p.pageRequest (p.locate slot).1)) :
    p.block map slot = p.block map' slot := by
  rcases Nat.lt_or_ge (p.locate slot).1 p.pages.capacity with hlt | hle
  · cases hm : p.mapping? (p.locate slot).1 with
    | some mapping => rw [block_of_mapping? hp hm, block_of_mapping? hp hm]
    | none => rw [block_of_unmapped hp hlt hm, block_of_unmapped hp hlt hm, h]
  · rw [block_of_beyond hp hle, block_of_beyond hp hle]

/-- Where a pool with pages of this size finds the blocks. -/
structure LaysOut (size : PageSize) (p : Pool) : Prop where
  /-- Every block has a place on one page, -/
  holds : ∀ slot, size.Holds slot (p.locate slot).1 (p.locate slot).2
  /-- and no byte in common with another. -/
  apart : ∀ slot other, slot ≠ other → (p.locate slot).1 ≠ (p.locate other).1 ∨
    (p.locate slot).2 + 8 ≤ (p.locate other).2 ∨ (p.locate other).2 + 8 ≤ (p.locate slot).2
  /-- The kernel is asked for this page and for nothing else. -/
  asks : ∀ slot map map',
    map ⟨(p.locate slot).1 * size.bytes, size.bytes⟩ =
      map' ⟨(p.locate slot).1 * size.bytes, size.bytes⟩ → p.block map slot = p.block map' slot
  /-- A block is given up exactly if it starts where the directory ends, or behind that. -/
  beyond_iff : ∀ slot map, p.EndsBeyond map slot ↔ 8192 * 1024 * size.bytes ≤ 8 * slot.number.toNat
  /-- This is counted, and that is all. -/
  beyond : ∀ slot map, p.EndsBeyond map slot →
    p.block map slot = ⟨none, p.noteFailure, [.slotBeyondDirectory slot (p.locate slot).1]⟩
  /-- On pages of 4096 bytes or more, no block is given up. -/
  reaches : 4096 ≤ size.bytes → ∀ slot map, ¬ p.EndsBeyond map slot

/-- Where a pool with the usual directory sees each slot. -/
theorem laysOut (hp : p.WellFormed) (hcapacity : p.pages.capacity = 8192 * 1024) :
    LaysOut p.pageSize p := by
  have hholds : ∀ slot, p.pageSize.Holds slot (p.locate slot).1 (p.locate slot).2 :=
    p.pageSize.holds_pageOf
  have hbeyond : ∀ slot map,
      p.EndsBeyond map slot ↔ 8192 * 1024 * p.pageSize.bytes ≤ 8 * slot.number.toNat := by
    intro slot map
    rw [endsBeyond_iff hp, hcapacity, locate, Nat.le_div_iff_mul_le p.pageSize.bytes_pos,
      PageSize.byteOffset_eq]
  constructor
  case holds => exact hholds
  case apart => exact fun slot other hne => PageSize.apart_of_ne hne (hholds slot) (hholds other)
  case asks => exact fun slot map map' h => block_congr hp h
  case beyond_iff => exact hbeyond
  case beyond => exact fun slot map h => block_of_beyond hp ((endsBeyond_iff hp).mp h) map
  case reaches =>
    intro hpage slot map h
    have hlast := slot.number.toNat_lt
    have hend := (hbeyond slot map).mp h
    omega

/-- **Every slot has its own place on one page, and the directory ends where `8192 · 1024` pages
end**, whatever a pool was asked before. -/
theorem slots_on_pages (file : OpenFile) (path : Path) (size : PageSize) (calls : List Call) :
    LaysOut size ((ofFile file path size).result.serve calls) := by
  have hstart := reflects_ofFile file path size
  obtain ⟨hp, hsize⟩ := hstart.wellFormed.serve calls
  have hcapacity := (capacity_serve hstart.wellFormed calls).trans hstart.capacity
  have hlaysOut := laysOut hp hcapacity
  rwa [hsize] at hlaysOut

end Pool

end SharedSync
