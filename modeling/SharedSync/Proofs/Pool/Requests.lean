import Mathlib.Data.Finset.Card
import Mathlib.Data.Finset.Insert
import Mathlib.Data.Finset.Lattice.Basic
import Mathlib.Data.List.Basic
import SharedSync.Proofs.Pool.Blocks

/-!
# Pool — a page is mapped once, and for good

A pool is asked for blocks one after the other, and the kernel may refuse any mapping.  What it has
answered tells what it answers next: a page of which a block was shown is mapped and stays where it
is, and any other page is left to the kernel, each time anew.

* `Reflects size log p`: the pool `p` has mapped just the pages that its answers `log` show, each of
  them once and beside the others.
* `Reflects.snoc`: one more request keeps that; `Reflects.serve`: so does any number.
* `served_places`: whatever a pool was asked before, it shows a slot at its place in the file.
* `mapped_for_good`: and blocks stay where they are, and never meet.
-/

namespace SharedSync

open Limits (stateBlockBytes pageChunks pageChunkLength)

namespace PageSize

/-- The page of a slot, where pages have this size. -/
def pageOf (size : PageSize) (slot : Slot) : Nat := slot.byteOffset / size.bytes

/-- The block is the slot's place in a mapping of the slot's page. -/
structure Places (size : PageSize) (slot : Slot) (block : StateBlock) : Prop where
  fileOffset : block.mapping.fileOffset = size.pageOf slot * size.bytes
  length : block.mapping.length = size.bytes
  address : block.address = block.mapping.base + slot.byteOffset % size.bytes
  within : block.address + stateBlockBytes ≤ block.mapping.base + block.mapping.length

/-- A page holds a whole number of blocks. -/
theorem dvd_bytes (size : PageSize) : stateBlockBytes ∣ size.bytes := by
  obtain ⟨k, hk⟩ := size.isPowerOfTwo
  have hle := size.holdsBlock
  rw [hk, show stateBlockBytes = 2 ^ 3 from rfl] at hle ⊢
  exact Nat.pow_dvd_pow 2 ((Nat.pow_le_pow_iff_right (by decide)).mp hle)

/-- A block ends on the page on which it starts. -/
theorem offset_le (size : PageSize) (slot : Slot) :
    slot.byteOffset % size.bytes + stateBlockBytes ≤ size.bytes := by
  have hlt := Nat.mod_lt slot.byteOffset size.bytes_pos
  have hd : stateBlockBytes ∣ slot.byteOffset % size.bytes :=
    (Nat.dvd_mod_iff size.dvd_bytes).mpr (Nat.dvd_mul_left _ _)
  obtain ⟨q, hq⟩ := size.dvd_bytes
  obtain ⟨o, ho⟩ := hd
  rw [ho, hq] at hlt ⊢
  have : o < q := Nat.lt_of_mul_lt_mul_left hlt
  rw [← Nat.mul_succ]
  exact Nat.mul_le_mul_left _ this

end PageSize

namespace Pool

/-! ### Requests and answers -/

/-- A request for the block of a slot, and what the kernel would say to it. -/
structure Call where
  slot : Slot
  map : Mapper

/-- What a request was answered. -/
structure Answer where
  slot : Slot
  shown : Option StateBlock
  events : List Event

/-- The pool after requests, one after the other. -/
def serve (p : Pool) (calls : List Call) : Pool :=
  calls.foldl (fun p call => (p.block call.map call.slot).state) p

/-- What the requests are answered, in order. -/
def answers (p : Pool) : List Call → List Answer
  | [] => []
  | call :: rest =>
      let served := p.block call.map call.slot
      ⟨call.slot, served.result, served.events⟩ :: answers served.state rest

/-- No mapping of the pool meets a page at `base`. -/
def Free (p : Pool) (base : Nat) : Prop :=
  ∀ page mapping, p.mapping? page = some mapping →
    base + p.pageSize.bytes ≤ mapping.base ∨ mapping.base + mapping.length ≤ base

/-- What the kernel maps, it maps where nothing is mapped. -/
def Fresh (p : Pool) : List Call → Prop
  | [] => True
  | call :: rest =>
      (∀ base, call.map (p.pageRequest (p.locate call.slot).1) = .ok base → p.Free base) ∧
        Fresh (p.block call.map call.slot).state rest

/-- The pages of which a block was shown. -/
def shownPages (size : PageSize) (log : List Answer) : Finset Nat :=
  ((log.filter (·.shown.isSome)).map (size.pageOf ·.slot)).toFinset

variable {size : PageSize} {log : List Answer} {p p' : Pool} {slot : Slot} {map : Mapper}

/-- A block that was shown adds its page. -/
theorem shownPages_snoc_some (size : PageSize) (log : List Answer) (slot : Slot)
    (block : StateBlock) (events : List Event) :
    shownPages size (log ++ [⟨slot, some block, events⟩]) =
      insert (size.pageOf slot) (shownPages size log) := by
  simp only [shownPages, List.filter_append, List.map_append, List.toFinset_append]
  rw [Finset.insert_eq, Finset.union_comm]
  rfl

theorem shownPages_snoc_none (size : PageSize) (log : List Answer) (slot : Slot)
    (events : List Event) :
    shownPages size (log ++ [⟨slot, none, events⟩]) = shownPages size log := by
  simp [shownPages]

/-- Blocks are where their slots place them. -/
theorem WellFormed.places (hp : p.WellFormed) (hs : p.pageSize = size) {block : StateBlock}
    (hb : p.blockAt? slot = some block) : size.Places slot block := by
  obtain ⟨mapping, hm, rfl⟩ := Option.map_eq_some_iff.mp hb
  obtain ⟨base, rfl⟩ := hp.maps _ _ hm
  subst hs
  have hle := p.pageSize.offset_le slot
  constructor
  case fileOffset => rfl
  case length => rfl
  case address => rfl
  case within =>
    simp only [StateBlock.address, mappingAt, locate]
    omega

/-- Serving slots keeps a pool in order, with pages of the same size. -/
theorem WellFormed.serve (hp : p.WellFormed) (calls : List Call) :
    (p.serve calls).WellFormed ∧ (p.serve calls).pageSize = p.pageSize := by
  induction calls generalizing p with
  | nil => exact ⟨hp, rfl⟩
  | cons call rest ih =>
      obtain ⟨hwell, hsize⟩ := ih (hp.block call.map call.slot)
      exact ⟨hwell, hsize.trans (showing_block hp call.map call.slot).pageSize_eq⟩

/-! ### A pool and its answers -/

/-- The pool has mapped the pages that its answers show, each of them once and beside the others. -/
structure Reflects (size : PageSize) (log : List Answer) (p : Pool) : Prop where
  pageSize : p.pageSize = size
  wellFormed : p.WellFormed
  capacity : p.pages.capacity = pageChunks * pageChunkLength
  shown : ∀ a ∈ log, ∀ block, a.shown = some block → p.blockAt? a.slot = some block
  mapped : ∀ page, page ∈ shownPages size log ↔ (p.mapping? page).isSome
  apart : ∀ page page' mapping mapping', p.mapping? page = some mapping →
    p.mapping? page' = some mapping' → page ≠ page' →
      mapping.base + mapping.length ≤ mapping'.base ∨ mapping'.base + mapping'.length ≤ mapping.base
  reported : ∀ page, (log.flatMap Answer.events).count (.mappedPage page) =
    if (p.mapping? page).isSome then 1 else 0
  pagesMapped : p.metrics.pagesMapped = (shownPages size log).card
  mapFailures : p.metrics.mapFailures = log.countP (·.shown.isNone)

/-- A new pool reflects an empty log. -/
theorem reflects_ofFile (file : OpenFile) (path : Path) (size : PageSize) :
    Reflects size [] (ofFile file path size).result := by
  have hnone : ∀ page, (ofFile file path size).result.mapping? page = none :=
    mapping?_of_pages_eq rfl
  constructor
  case pageSize => rfl
  case wellFormed => exact wellFormed_of_pages_eq rfl
  case capacity =>
    show emptyPages.chunks.size * pageChunkLength = _
    rw [emptyPages, Array.size_replicate]
  case shown => exact fun a ha => absurd ha List.not_mem_nil
  case mapped => simp [shownPages, hnone]
  case apart => simp [hnone]
  case reported => simp [hnone]
  case pagesMapped => rfl
  case mapFailures => rfl

namespace Reflects

theorem locate_fst (h : Reflects size log p) (slot : Slot) :
    (p.locate slot).1 = size.pageOf slot := by
  rw [locate, h.pageSize, PageSize.pageOf]

theorem locate_snd (h : Reflects size log p) (slot : Slot) :
    (p.locate slot).2 = slot.byteOffset % size.bytes := by
  rw [locate, h.pageSize]

/-- An answer that shows nothing new of the pages. -/
theorem snoc_known (h : Reflects size log p) {mapping : Mapping}
    (hm : p.mapping? (p.locate slot).1 = some mapping) :
    Reflects size (log ++ [⟨slot, some ⟨mapping, (p.locate slot).2⟩, []⟩]) p := by
  have hold : size.pageOf slot ∈ shownPages size log := by
    rw [h.mapped, ← h.locate_fst, hm, Option.isSome_some]
  have hpages := shownPages_snoc_some size log slot ⟨mapping, (p.locate slot).2⟩ []
  rw [Finset.insert_eq_self.mpr hold] at hpages
  constructor
  case pageSize => exact h.pageSize
  case wellFormed => exact h.wellFormed
  case capacity => exact h.capacity
  case shown =>
    intro a ha block hb
    rcases List.mem_append.mp ha with ha | ha
    · exact h.shown a ha block hb
    · obtain rfl := List.mem_singleton.mp ha
      rw [blockAt?, hm, ← hb, Option.map_some]
  case mapped => rw [hpages]; exact h.mapped
  case apart => exact h.apart
  case reported => simpa using h.reported
  case pagesMapped => rw [hpages, h.pagesMapped]
  case mapFailures => simpa using h.mapFailures

/-- An answer that shows nothing. -/
theorem snoc_unshown (h : Reflects size log p) {events : List Event}
    (hsize : p'.pageSize = p.pageSize) (hwell : p'.WellFormed)
    (hcapacity : p'.pages.capacity = p.pages.capacity)
    (hsame : ∀ page, p'.mapping? page = p.mapping? page)
    (hmetrics : p'.metrics = { p.metrics with mapFailures := p.metrics.mapFailures + 1 })
    (hevents : ∀ page, .mappedPage page ∉ events) :
    Reflects size (log ++ [⟨slot, none, events⟩]) p' := by
  have hpages := shownPages_snoc_none size log slot events
  constructor
  case pageSize => rw [hsize, h.pageSize]
  case wellFormed => exact hwell
  case capacity => rw [hcapacity, h.capacity]
  case shown =>
    intro a ha block hb
    rcases List.mem_append.mp ha with ha | ha
    · rw [blockAt?_of_mapping? hsize (hsame _)]
      exact h.shown a ha block hb
    · obtain rfl := List.mem_singleton.mp ha
      cases hb
  case mapped =>
    intro page
    rw [hpages, hsame]
    exact h.mapped page
  case apart =>
    intro page page' mapping mapping'
    rw [hsame, hsame]
    exact h.apart page page' mapping mapping'
  case reported =>
    intro page
    rw [List.flatMap_append, List.flatMap_singleton, List.count_append, h.reported, hsame,
      List.count_eq_zero.mpr (hevents page), Nat.add_zero]
  case pagesMapped => rw [hpages, hmetrics, h.pagesMapped]
  case mapFailures => simp [hmetrics, h.mapFailures]

/-- An answer that shows a block on a page that was just mapped. -/
theorem snoc_mapped (h : Reflects size log p) {base : Nat} (hfree : p.Free base)
    (hsize : p'.pageSize = p.pageSize) (hwell : p'.WellFormed)
    (hcapacity : p'.pages.capacity = p.pages.capacity)
    (hnone : p.mapping? (p.locate slot).1 = none)
    (hmapping : ∀ page, p'.mapping? page =
      if page = (p.locate slot).1 then some (p.mappingAt (p.locate slot).1 base)
      else p.mapping? page)
    (hmetrics : p'.metrics = { p.metrics with pagesMapped := p.metrics.pagesMapped + 1 }) :
    Reflects size (log ++ [⟨slot, some ⟨p.mappingAt (p.locate slot).1 base, (p.locate slot).2⟩,
      [.mappedPage (p.locate slot).1]⟩]) p' := by
  have hpage := h.locate_fst slot
  have hnew : size.pageOf slot ∉ shownPages size log := by
    rw [h.mapped, ← hpage, hnone]
    exact nofun
  have hpages := shownPages_snoc_some size log slot
    ⟨p.mappingAt (p.locate slot).1 base, (p.locate slot).2⟩ [.mappedPage (p.locate slot).1]
  -- the new mapping stands beside those that were there
  have hbeside : ∀ page mapping, p.mapping? page = some mapping →
      base + p.pageSize.bytes ≤ mapping.base ∨ mapping.base + mapping.length ≤ base := hfree
  constructor
  case pageSize => rw [hsize, h.pageSize]
  case wellFormed => exact hwell
  case capacity => rw [hcapacity, h.capacity]
  case shown =>
    intro a ha block hb
    rcases List.mem_append.mp ha with ha | ha
    · have hold := h.shown a ha block hb
      obtain ⟨mapping, hm, rfl⟩ := Option.map_eq_some_iff.mp hold
      have hne : (p.locate a.slot).1 ≠ (p.locate slot).1 := fun he => by
        rw [he, hnone] at hm
        cases hm
      rw [blockAt?_of_mapping? hsize ((hmapping _).trans (if_neg hne)), hm, Option.map_some]
    · obtain rfl := List.mem_singleton.mp ha
      rw [blockAt?_of_mapping? hsize ((hmapping _).trans (if_pos rfl)), ← hb, Option.map_some]
  case mapped =>
    intro page
    rw [hpages, Finset.mem_insert, hmapping, h.mapped, hpage]
    split
    · next he => simp [he]
    · next hne => simp [hne]
  case apart =>
    intro page page' mapping mapping' hm hm' hne
    rw [hmapping] at hm hm'
    split at hm <;> split at hm'
    · next he he' => exact absurd (he.trans he'.symm) hne
    · cases hm
      exact hbeside page' mapping' hm'
    · cases hm'
      exact (hbeside page mapping hm).symm
    · exact h.apart page page' mapping mapping' hm hm' hne
  case reported =>
    intro page
    rw [List.flatMap_append, List.flatMap_singleton, List.count_append, h.reported, hmapping]
    by_cases he : page = (p.locate slot).1
    · simp [he, hnone]
    · simp [he, Ne.symm he]
  case pagesMapped =>
    rw [hpages, Finset.card_insert_of_notMem hnew, hmetrics, h.pagesMapped]
  case mapFailures => simp [hmetrics, h.mapFailures]

/-- **One more request keeps what the pool reflects.** -/
theorem snoc (h : Reflects size log p)
    (hfree : ∀ base, map (p.pageRequest (p.locate slot).1) = .ok base → p.Free base) :
    Reflects size (log ++ [⟨slot, (p.block map slot).result, (p.block map slot).events⟩])
      (p.block map slot).state := by
  have hp := h.wellFormed
  have hshowing := showing_block hp map slot
  have hsize := hshowing.pageSize_eq
  have hwell := hshowing.wellFormed hp
  have hcapacity := hshowing.capacity_eq
  clear hshowing
  rcases Nat.lt_or_ge (p.locate slot).1 p.pages.capacity with hlt | hle
  · cases hm : p.mapping? (p.locate slot).1 with
    | some mapping =>
        rw [block_of_mapping? hp hm]
        exact h.snoc_known hm
    | none =>
        rw [block_of_unmapped hp hlt hm] at hsize hwell hcapacity ⊢
        cases hmap : map (p.pageRequest (p.locate slot).1) with
        | error error =>
            rw [hmap] at hsize hwell hcapacity
            refine h.snoc_unshown hsize hwell hcapacity (mapping?_touch hp _) rfl fun page => ?_
            simp
        | ok base =>
            rw [hmap] at hsize hwell hcapacity
            exact h.snoc_mapped (hfree base hmap) hsize hwell hcapacity hm
              (Directory.element_touch_set hp.pages hlt _) rfl
  · rw [block_of_beyond hp hle] at hsize hwell hcapacity ⊢
    refine h.snoc_unshown hsize hwell hcapacity (fun _ => rfl) rfl fun page => ?_
    simp

/-- So does any number of requests. -/
theorem serve (h : Reflects size log p) {calls : List Call} (fresh : p.Fresh calls) :
    Reflects size (log ++ p.answers calls) (p.serve calls) := by
  induction calls generalizing log p with
  | nil => simpa [answers, Pool.serve] using h
  | cons call rest ih =>
      have hrest := ih (h.snoc fresh.1) fresh.2
      rwa [List.append_assoc] at hrest

/-! ### Blocks that were shown -/

/-- A block that was shown is in the mapping of its page, at the slot's place. -/
theorem exists_mapping (h : Reflects size log p) {a : Answer} (ha : a ∈ log) {block : StateBlock}
    (hb : a.shown = some block) :
    p.mapping? (size.pageOf a.slot) = some block.mapping ∧
      block.offset = a.slot.byteOffset % size.bytes := by
  obtain ⟨mapping, hm, rfl⟩ := Option.map_eq_some_iff.mp (h.shown a ha block hb)
  exact ⟨h.locate_fst a.slot ▸ hm, h.locate_snd a.slot⟩

theorem places (h : Reflects size log p) {a : Answer} (ha : a ∈ log) {block : StateBlock}
    (hb : a.shown = some block) : size.Places a.slot block :=
  h.wellFormed.places h.pageSize (h.shown a ha block hb)

/-- Blocks of one slot are one block. -/
theorem eq_of_slot (h : Reflects size log p) {a b : Answer} (ha : a ∈ log) (hb : b ∈ log)
    {x y : StateBlock} (hx : a.shown = some x) (hy : b.shown = some y) (hslot : a.slot = b.slot) :
    x = y := by
  have hxy := (h.shown a ha x hx).symm.trans (hslot ▸ h.shown b hb y hy)
  exact Option.some.inj hxy

/-- Blocks of two slots do not meet. -/
theorem disjoint_of_slot (h : Reflects size log p) {a b : Answer} (ha : a ∈ log) (hb : b ∈ log)
    {x y : StateBlock} (hx : a.shown = some x) (hy : b.shown = some y) (hslot : a.slot ≠ b.slot) :
    x.address + stateBlockBytes ≤ y.address ∨ y.address + stateBlockBytes ≤ x.address := by
  have hpx := h.places ha hx
  have hpy := h.places hb hy
  obtain ⟨hmx, -⟩ := h.exists_mapping ha hx
  obtain ⟨hmy, -⟩ := h.exists_mapping hb hy
  by_cases hpage : size.pageOf a.slot = size.pageOf b.slot
  · -- one mapping, in which the slots have places of their own
    have hmapping : x.mapping = y.mapping := Option.some.inj (hmx.symm.trans (hpage ▸ hmy))
    have hne : a.slot.number.toNat ≠ b.slot.number.toNat := fun he =>
      hslot (Slot.byteOffset_inj (congrArg (· * stateBlockBytes) he))
    have hda := Nat.div_add_mod a.slot.byteOffset size.bytes
    have hdb := Nat.div_add_mod b.slot.byteOffset size.bytes
    rw [show a.slot.byteOffset / size.bytes = size.pageOf a.slot from rfl, hpage] at hda
    rw [show b.slot.byteOffset / size.bytes = size.pageOf b.slot from rfl] at hdb
    rw [hpx.address, hpy.address, hmapping]
    simp only [Slot.byteOffset, stateBlockBytes] at hda hdb ⊢
    omega
  · have hbounds : ∀ z : StateBlock, z.mapping.base ≤ z.address := fun z => Nat.le_add_right _ _
    have hx₁ := hbounds x
    have hy₁ := hbounds y
    have hx₂ := hpx.within
    have hy₂ := hpy.within
    have hapart := h.apart _ _ _ _ hmx hmy hpage
    omega

/-- Of a page that is mapped a block was shown. -/
theorem exists_shown (h : Reflects size log p) {page : Nat} {mapping : Mapping}
    (hm : p.mapping? page = some mapping) :
    ∃ a ∈ log, size.pageOf a.slot = page ∧ ∃ block, a.shown = some block ∧
      block.mapping = mapping := by
  have hmem : page ∈ shownPages size log := (h.mapped page).mpr (by rw [hm, Option.isSome_some])
  simp only [shownPages, List.mem_toFinset, List.mem_map, List.mem_filter] at hmem
  obtain ⟨a, ⟨ha, hs⟩, rfl⟩ := hmem
  obtain ⟨block, hb⟩ := Option.isSome_iff_exists.mp hs
  exact ⟨a, ha, rfl, block, hb, Option.some.inj ((h.exists_mapping ha hb).1.symm.trans hm)⟩

/-- What meets no mapping of a block that was shown meets no mapping. -/
theorem free (h : Reflects size log p) {base : Nat}
    (hbeside : ∀ block ∈ log.filterMap Answer.shown,
      base + size.bytes ≤ block.mapping.base ∨
        block.mapping.base + block.mapping.length ≤ base) : p.Free base := by
  intro page mapping hm
  obtain ⟨a, ha, -, block, hb, rfl⟩ := h.exists_shown hm
  rw [h.pageSize]
  exact hbeside block (List.mem_filterMap.mpr ⟨a, ha, hb⟩)

end Reflects

/-- Whatever a pool was asked before, it shows a slot at its place in the file. -/
theorem served_places {file : OpenFile} {path : Path} {calls : List Call} {block : StateBlock}
    (hb : (((ofFile file path size).result.serve calls).block map slot).result = some block) :
    size.Places slot block ∧ block.fileOffset = slot.byteOffset := by
  obtain ⟨hwell, hsize⟩ := (reflects_ofFile file path size).wellFormed.serve calls
  generalize (ofFile file path size).result.serve calls = p at hb hwell hsize
  have hshowing := showing_block hwell map slot
  have hblock := hshowing.result_eq hwell
  have hwell' := hshowing.wellFormed hwell
  rw [hb] at hblock
  exact ⟨hwell'.places (hshowing.pageSize_eq.trans hsize) hblock.symm,
    hwell'.fileOffset_blockAt? hblock.symm⟩

/-! ### Once and for good -/

/-- What a pool with pages of this size does, after it answered `log`. -/
structure MapsOnce (size : PageSize) (log : List Answer) (p : Pool) : Prop where
  /-- No page was mapped twice. -/
  once : ∀ page, (log.flatMap Answer.events).count (.mappedPage page) ≤ 1
  /-- A block that was shown lies in a mapping of its page, -/
  placed : ∀ a ∈ log, ∀ x, a.shown = some x → size.Places a.slot x
  /-- in which every slot of the page is shown from then on, whatever the kernel would say. -/
  stays : ∀ a ∈ log, ∀ x, a.shown = some x → ∀ slot, size.pageOf slot = size.pageOf a.slot →
    ∀ map, p.block map slot = ⟨some ⟨x.mapping, slot.byteOffset % size.bytes⟩, p, []⟩
  /-- One slot has one address, and the blocks of two slots do not meet. -/
  same : ∀ a ∈ log, ∀ b ∈ log, ∀ x y, a.shown = some x → b.shown = some y → a.slot = b.slot →
    x.address = y.address
  apart : ∀ a ∈ log, ∀ b ∈ log, ∀ x y, a.shown = some x → b.shown = some y → a.slot ≠ b.slot →
    x.address + stateBlockBytes ≤ y.address ∨ y.address + stateBlockBytes ≤ x.address
  /-- As long as no block of a page was shown, the kernel is asked again, -/
  asks : ∀ slot, size.pageOf slot < pageChunks * pageChunkLength →
    (∀ a ∈ log, size.pageOf a.slot = size.pageOf slot → a.shown = none) → ∀ map,
      (p.block map slot).result =
        (map ⟨size.pageOf slot * size.bytes, size.bytes⟩).toOption.map fun base =>
          ⟨⟨base, size.pageOf slot * size.bytes, size.bytes⟩, slot.byteOffset % size.bytes⟩
  /-- and a request to which nothing is shown maps nothing. -/
  unshown : ∀ slot map, (p.block map slot).result = none →
    ∀ page, (p.block map slot).state.mapping? page = p.mapping? page
  /-- A slot behind the last page is counted, and that is all. -/
  beyond : ∀ slot, pageChunks * pageChunkLength ≤ size.pageOf slot → ∀ map,
    p.block map slot = ⟨none, p.noteFailure, [.slotBeyondDirectory slot (size.pageOf slot)]⟩
  pagesMapped : p.metrics.pagesMapped = (shownPages size log).card
  mapFailures : p.metrics.mapFailures = log.countP (·.shown.isNone)

/-- **However the kernel answers, a page is mapped once and for good.** -/
theorem mapped_for_good {file : OpenFile} {path : Path} {calls : List Call}
    (fresh : (ofFile file path size).result.Fresh calls) :
    MapsOnce size ((ofFile file path size).result.answers calls)
      ((ofFile file path size).result.serve calls) := by
  have h := (reflects_ofFile file path size).serve fresh
  rw [List.nil_append] at h
  generalize (ofFile file path size).result.answers calls = log at h
  generalize (ofFile file path size).result.serve calls = p at h
  have hp := h.wellFormed
  constructor
  case once =>
    intro page
    rw [h.reported]
    split <;> decide
  case placed => exact fun a ha x hx => h.places ha hx
  case stays =>
    intro a ha x hx slot hpage map
    obtain ⟨hm, -⟩ := h.exists_mapping ha hx
    rw [← hpage, ← h.locate_fst] at hm
    rw [block_of_mapping? hp hm, h.locate_snd]
  case same =>
    intro a ha b hb x y hx hy hslot
    rw [h.eq_of_slot ha hb hx hy hslot]
  case apart => exact fun a ha b hb x y hx hy => h.disjoint_of_slot ha hb hx hy
  case asks =>
    intro slot hlt hnone map
    -- a page that is mapped was shown to some call
    have hm : p.mapping? (size.pageOf slot) = none := by
      refine Option.eq_none_iff_forall_ne_some.mpr fun mapping hm => ?_
      obtain ⟨a, ha, hpage, block, hb, -⟩ := h.exists_shown hm
      rw [hnone a ha hpage] at hb
      cases hb
    rw [← h.capacity] at hlt
    rw [← h.locate_fst] at hlt hm
    rw [block_of_unmapped hp hlt hm]
    simp only [pageRequest, mappingAt, h.pageSize, h.locate_fst, h.locate_snd]
    cases map ⟨size.pageOf slot * size.bytes, size.bytes⟩ <;> rfl
  case unshown =>
    intro slot map hnone page
    have hshowing := showing_block hp map slot
    rw [hnone] at hshowing
    exact hshowing.mapping?_of_none hp page
  case beyond =>
    intro slot hle map
    rw [← h.capacity, ← h.locate_fst] at hle
    rw [block_of_beyond hp hle, h.locate_fst]
  case pagesMapped => exact h.pagesMapped
  case mapFailures => exact h.mapFailures

namespace Small

/-- A kernel that maps nothing. -/
def refuse : Mapper := fun _ => .error .cannotAllocate

/-- A kernel that maps at an address. -/
def mapAt (base : Nat) : Mapper := fun _ => .ok base

/-- A new pool. -/
def pool : Pool := (ofFile ⟨3⟩ ⟨[0x66]⟩ .usual).result

/-- A refused mapping, the same again, a second block of that page, and a block of the next page. -/
def calls : List Call :=
  [⟨⟨3⟩, refuse⟩, ⟨⟨3⟩, mapAt 65536⟩, ⟨⟨5⟩, refuse⟩, ⟨⟨600⟩, mapAt 131072⟩]

/-- What the calls were shown. -/
def blocks : List (Option StateBlock) :=
  [none, some ⟨⟨65536, 0, 4096⟩, 24⟩, some ⟨⟨65536, 0, 4096⟩, 40⟩, some ⟨⟨131072, 4096, 4096⟩, 704⟩]

/-- The kernel of the small run never gives an address twice. -/
theorem fresh_calls : pool.Fresh calls := by
  have h := reflects_ofFile ⟨3⟩ ⟨[0x66]⟩ .usual
  have hfirst : (pool.serve (calls.take 1)).Free 65536 := by
    have hone : pool.Fresh (calls.take 1) := ⟨nofun, trivial⟩
    exact (h.serve hone).free (by decide +kernel)
  have hlast : (pool.serve (calls.take 3)).Free 131072 := by
    have hthree : pool.Fresh (calls.take 3) := by
      refine ⟨nofun, ?_, nofun, trivial⟩
      rintro base ⟨⟩
      exact hfirst
    exact (h.serve hthree).free (by decide +kernel)
  refine ⟨nofun, ?_, nofun, ?_, trivial⟩
  · rintro base ⟨⟩
    exact hfirst
  · rintro base ⟨⟩
    exact hlast

end Small

/-- The page of slots 3 and 5 is mapped at the second request, and that of slot 600 beside it. -/
theorem mapped_for_good_small :
    Small.pool.Fresh Small.calls ∧
      (Small.pool.answers Small.calls).map Answer.shown = Small.blocks ∧
      MapsOnce .usual (Small.pool.answers Small.calls) (Small.pool.serve Small.calls) :=
  ⟨Small.fresh_calls, by decide +kernel, mapped_for_good Small.fresh_calls⟩

end Pool

end SharedSync
