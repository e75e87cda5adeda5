import SharedSync.Pool
import SharedSync.Proofs.Directory.Elements

/-!
# Pool — one mapping per page

`blockAt? p s` is where the block of slot `s` is in memory, once its page is mapped.

* `block_of_mapping?`, `block_of_unmapped`, `block_of_beyond`: what a request for a block does.
* `showing_block`: so there are four ways in which it can end.
* `Showing.result_eq`: a request answers with `blockAt?` of the pool it leaves.
* `Showing.blockAt?_mono`: a block that is in memory stays where it is.
* `WellFormed.fileOffset_blockAt?`: the block of a slot is the slot's eight bytes of the file.
-/

namespace SharedSync.Pool

/-- The mapping of a page, if it is mapped. -/
def mapping? (p : Pool) (page : Nat) : Option Mapping := p.pages.element page

/-- The block of a slot, if its page is mapped. -/
def blockAt? (p : Pool) (slot : Slot) : Option StateBlock :=
  (p.mapping? (p.locate slot).1).map fun mapping => ⟨mapping, (p.locate slot).2⟩

/-- What the pool asks the kernel for. -/
def pageRequest (p : Pool) (page : Nat) : MapRequest := ⟨page * p.pageSize.bytes, p.pageSize.bytes⟩

/-- The mapping of a page that the kernel put at `base`. -/
def mappingAt (p : Pool) (page base : Nat) : Mapping :=
  ⟨base, page * p.pageSize.bytes, p.pageSize.bytes⟩

/-- Each mapped page shows its own part of the file. -/
structure WellFormed (p : Pool) : Prop where
  pages : p.pages.WellFormed
  maps : ∀ page mapping, p.mapping? page = some mapping →
    ∃ base, mapping = p.mappingAt page base

@[simp] theorem mapping?_noteFailure (p : Pool) (page : Nat) :
    p.noteFailure.mapping? page = p.mapping? page := rfl

theorem mapping?_touch {p : Pool} (hp : p.WellFormed) (i page : Nat) :
    mapping? { p with pages := (p.pages.touch i).2 } page = p.mapping? page :=
  Directory.element_touch hp.pages i page

/-- A slot is seen through the mapping of its page. -/
theorem blockAt?_of_mapping? {p p' : Pool} (hs : p'.pageSize = p.pageSize) {slot : Slot}
    {mapping : Option Mapping} (h : p'.mapping? (p.locate slot).1 = mapping) :
    p'.blockAt? slot = mapping.map fun m => ⟨m, (p.locate slot).2⟩ := by
  have hl : p'.locate slot = p.locate slot := by rw [locate, hs, locate]
  rw [blockAt?, hl, h]

/-! ### Asking for a block -/

/-- The four ways in which a request for a slot's block can end. -/
inductive Showing (map : Mapper) (p : Pool) (slot : Slot) : Option StateBlock → Pool → Prop where
  | beyond (h : p.pages.capacity ≤ (p.locate slot).1) : Showing map p slot none p.noteFailure
  | known {mapping} (h : p.mapping? (p.locate slot).1 = some mapping) :
      Showing map p slot (some ⟨mapping, (p.locate slot).2⟩)
        { p with pages := (p.pages.touch (p.locate slot).1).2 }
  | refused {error} (h : p.mapping? (p.locate slot).1 = none)
      (hmap : map (p.pageRequest (p.locate slot).1) = .error error) :
      Showing map p slot none
        (noteFailure { p with pages := (p.pages.touch (p.locate slot).1).2 })
  | mapped (base) (within : (p.locate slot).1 < p.pages.capacity)
      (h : p.mapping? (p.locate slot).1 = none)
      (hmap : map (p.pageRequest (p.locate slot).1) = .ok base) :
      Showing map p slot (some ⟨p.mappingAt (p.locate slot).1 base, (p.locate slot).2⟩)
        { p with
          pages := (p.pages.touch (p.locate slot).1).2.set (p.locate slot).1
            (some (p.mappingAt (p.locate slot).1 base))
          metrics := { p.metrics with pagesMapped := p.metrics.pagesMapped + 1 } }

/-- A page that is mapped has its place in the directory, and nothing is made for it again. -/
theorem touch_of_mapping? {p : Pool} (hp : p.WellFormed) {page : Nat} {mapping : Mapping}
    (h : p.mapping? page = some mapping) :
    p.pages.touch page = (some (some mapping), p.pages) := by
  have hlt : page < p.pages.capacity := Nat.lt_of_not_le fun hle => by
    rw [mapping?, Directory.element, Directory.get?_of_le hp.pages hle] at h
    cases h
  have hchunk : (p.pages.chunk? (page / p.pages.chunkLength)).isSome := by
    refine Option.isSome_iff_ne_none.mpr fun hnone => ?_
    rw [mapping?, Directory.element_of_chunk?_eq_none hnone] at h
    cases h
  refine Prod.ext ?_ ?_
  · rw [Directory.touch_result hp.pages, if_pos hlt]
    exact congrArg some h
  · rw [Directory.touch_state_of_lt hlt, Directory.touchChunk_of_isSome hchunk]

/-- A block on a page that is mapped is shown there, and the kernel is not asked. -/
theorem block_of_mapping? {p : Pool} (hp : p.WellFormed) {slot : Slot} {mapping : Mapping}
    (h : p.mapping? (p.locate slot).1 = some mapping) (map : Mapper) :
    p.block map slot = ⟨some ⟨mapping, (p.locate slot).2⟩, p, []⟩ := by
  simp only [block, touch_of_mapping? hp h]

/-- A block on a page that is not mapped is shown where the kernel maps the page, if it does. -/
theorem block_of_unmapped {p : Pool} (hp : p.WellFormed) {slot : Slot}
    (within : (p.locate slot).1 < p.pages.capacity)
    (h : p.mapping? (p.locate slot).1 = none) (map : Mapper) :
    p.block map slot =
      match map (p.pageRequest (p.locate slot).1) with
      | .error error =>
          ⟨none, noteFailure { p with pages := (p.pages.touch (p.locate slot).1).2 },
            [.mapFailed (p.locate slot).1 (p.pageRequest (p.locate slot).1).fileOffset error]⟩
      | .ok base =>
          ⟨some ⟨p.mappingAt (p.locate slot).1 base, (p.locate slot).2⟩,
            { p with
              pages := (p.pages.touch (p.locate slot).1).2.set (p.locate slot).1
                (some (p.mappingAt (p.locate slot).1 base))
              metrics := { p.metrics with pagesMapped := p.metrics.pagesMapped + 1 } },
            [.mappedPage (p.locate slot).1]⟩ := by
  have hr := Directory.touch_result hp.pages (p.locate slot).1
  rw [if_pos within, show p.pages.element (p.locate slot).1 = none from h] at hr
  have ht : p.pages.touch (p.locate slot).1 =
      (some none, (p.pages.touch (p.locate slot).1).2) := Prod.ext hr rfl
  unfold block
  simp only
  rw [ht]
  rfl

/-- A slot whose page has no place in the directory is counted as a failure, and that is all. -/
theorem block_of_beyond {p : Pool} (hp : p.WellFormed) {slot : Slot}
    (h : p.pages.capacity ≤ (p.locate slot).1) (map : Mapper) :
    p.block map slot =
      ⟨none, p.noteFailure, [.slotBeyondDirectory slot (p.locate slot).1]⟩ := by
  have ht : p.pages.touch (p.locate slot).1 = (none, p.pages) := by
    rw [Directory.touch, Directory.split_of_le hp.pages h]
  simp only [block, ht]

/-- What `block` does is one of the ways of showing a slot. -/
theorem showing_block {p : Pool} (hp : p.WellFormed) (map : Mapper) (slot : Slot) :
    Showing map p slot (p.block map slot).result (p.block map slot).state := by
  rcases Nat.lt_or_ge (p.locate slot).1 p.pages.capacity with hlt | hle
  · cases hm : p.mapping? (p.locate slot).1 with
    | some mapping =>
        have hknown := @Showing.known map p slot mapping hm
        rw [touch_of_mapping? hp hm] at hknown
        rw [block_of_mapping? hp hm]
        exact hknown
    | none =>
        rw [block_of_unmapped hp hlt hm]
        cases hmap : map (p.pageRequest (p.locate slot).1) with
        | error error => exact .refused hm hmap
        | ok base => exact .mapped base hlt hm hmap
  · rw [block_of_beyond hp hle]
    exact .beyond hle

variable {map : Mapper} {p p' : Pool} {slot : Slot} {shown : Option StateBlock}

theorem Showing.pageSize_eq (h : Showing map p slot shown p') : p'.pageSize = p.pageSize := by
  cases h <;> rfl

theorem Showing.capacity_eq (h : Showing map p slot shown p') :
    p'.pages.capacity = p.pages.capacity := by
  cases h with
  | beyond => rfl
  | known => exact Directory.capacity_touch _ _
  | refused => exact Directory.capacity_touch _ _
  | mapped => exact (Directory.capacity_set _ _ _).trans (Directory.capacity_touch _ _)

/-- A request maps the page of its slot, or no page. -/
theorem Showing.mapping?_eq (hp : p.WellFormed) (h : Showing map p slot shown p') (page : Nat) :
    p'.mapping? page = p.mapping? page ∨
      page = (p.locate slot).1 ∧ p.mapping? page = none ∧
        ∃ base, p'.mapping? page = some (p.mappingAt page base) := by
  cases h with
  | beyond => exact .inl rfl
  | known => exact .inl (mapping?_touch hp _ page)
  | refused => exact .inl (mapping?_touch hp _ page)
  | mapped base within h _ =>
      have hs := Directory.element_touch_set hp.pages within
        (some (p.mappingAt (p.locate slot).1 base)) page
      by_cases hq : page = (p.locate slot).1
      · subst hq
        exact .inr ⟨rfl, h, base, by rw [mapping?, hs, if_pos rfl]⟩
      · exact .inl (by rw [mapping?, hs, if_neg hq, mapping?])

/-- A request that shows nothing maps nothing. -/
theorem Showing.mapping?_of_none (hp : p.WellFormed) (h : Showing map p slot none p')
    (page : Nat) : p'.mapping? page = p.mapping? page := by
  cases h with
  | beyond => rfl
  | refused => exact mapping?_touch hp _ page

/-- Every mapping keeps showing its own part of the file. -/
theorem Showing.wellFormed (hp : p.WellFormed) (h : Showing map p slot shown p') :
    p'.WellFormed := by
  refine ⟨?_, ?_⟩
  · cases h with
    | beyond => exact hp.pages
    | known => exact hp.pages.touch _
    | refused => exact hp.pages.touch _
    | mapped base within => exact (hp.pages.touch _).set (by rwa [Directory.capacity_touch]) _
  · intro page mapping hm
    have hat : ∀ page base, p'.mappingAt page base = p.mappingAt page base := by
      intro page base
      rw [mappingAt, h.pageSize_eq, mappingAt]
    rcases h.mapping?_eq hp page with he | ⟨-, -, base, he⟩
    · obtain ⟨base, hb⟩ := hp.maps page mapping (he ▸ hm)
      exact ⟨base, by rw [hat, hb]⟩
    · rw [he] at hm
      exact ⟨base, by rw [hat]; exact (Option.some.inj hm).symm⟩

theorem WellFormed.block (hp : p.WellFormed) (map : Mapper) (slot : Slot) :
    (p.block map slot).state.WellFormed := (showing_block hp map slot).wellFormed hp

/-- **A request answers with the block of the pool it leaves.** -/
theorem Showing.result_eq (hp : p.WellFormed) (h : Showing map p slot shown p') :
    shown = p'.blockAt? slot := by
  have hs := h.pageSize_eq
  cases h with
  | beyond h =>
      have hn : p.mapping? (p.locate slot).1 = none := by
        rw [mapping?, Directory.element, Directory.get?_of_le hp.pages h]
        rfl
      rw [blockAt?_of_mapping? hs (mapping?_noteFailure p _ ▸ hn), Option.map_none]
  | known h => rw [blockAt?_of_mapping? hs ((mapping?_touch hp _ _).trans h), Option.map_some]
  | refused h _ =>
      rw [blockAt?_of_mapping? hs ((mapping?_touch hp _ _).trans h), Option.map_none]
  | mapped base within _ _ =>
      rw [blockAt?_of_mapping? hs (Directory.element_touch_set hp.pages within _ _), if_pos rfl,
        Option.map_some]

/-- **A block that is in memory stays where it is.** -/
theorem Showing.blockAt?_mono (hp : p.WellFormed) (h : Showing map p slot shown p') {s : Slot}
    {block : StateBlock} (hb : p.blockAt? s = some block) : p'.blockAt? s = some block := by
  obtain ⟨mapping, hm, rfl⟩ := Option.map_eq_some_iff.mp hb
  have hm' : p'.mapping? (p.locate s).1 = some mapping := by
    rcases h.mapping?_eq hp (p.locate s).1 with he | ⟨-, hn, -⟩
    · rw [he, hm]
    · rw [hn] at hm; cases hm
  rw [blockAt?_of_mapping? h.pageSize_eq hm', Option.map_some]

/-- The directory has a place for the page of every slot. -/
def Spacious (p : Pool) : Prop := ∀ slot, (p.locate slot).1 < p.pages.capacity

theorem Showing.spacious (hs : p.Spacious) (h : Showing map p slot shown p') : p'.Spacious := by
  intro s
  rw [h.capacity_eq, locate, h.pageSize_eq]
  exact hs s

/-- If the kernel agrees, the page is mapped. -/
theorem Showing.isSome (hmap : ∀ request, ∃ base, map request = .ok base) (hs : p.Spacious)
    (h : Showing map p slot shown p') : shown.isSome := by
  cases h with
  | beyond hle => exact absurd (hs slot) (Nat.not_lt.mpr hle)
  | known => rfl
  | refused _ he =>
      obtain ⟨base, hb⟩ := hmap (p.pageRequest (p.locate slot).1)
      rw [hb] at he
      cases he
  | mapped => rfl

/-! ### The bytes of a block -/

/-- The block of a slot is the slot's bytes of the file. -/
theorem WellFormed.fileOffset_blockAt? (hp : p.WellFormed) {block : StateBlock}
    (hb : p.blockAt? slot = some block) : block.fileOffset = slot.byteOffset := by
  obtain ⟨mapping, hm, rfl⟩ := Option.map_eq_some_iff.mp hb
  obtain ⟨base, rfl⟩ := hp.maps _ _ hm
  show slot.byteOffset / p.pageSize.bytes * p.pageSize.bytes + slot.byteOffset % p.pageSize.bytes
    = slot.byteOffset
  rw [Nat.mul_comm]
  exact Nat.div_add_mod _ _

/-! ### A pool that was just opened -/

theorem mapping?_of_pages_eq (h : p.pages = emptyPages) (page : Nat) : p.mapping? page = none := by
  rw [mapping?, h]
  exact Directory.element_of_replicate rfl page

theorem wellFormed_of_pages_eq (h : p.pages = emptyPages) : p.WellFormed :=
  ⟨h ▸ Directory.wellFormed_of_replicate (show 0 < Limits.pageChunkLength by decide) rfl,
    fun page mapping hm => by rw [mapping?_of_pages_eq h] at hm; cases hm⟩

/-- Every slot's page has a place in the directory if pages are as large as machines have them. -/
theorem spacious_of_pages_eq (h : p.pages = emptyPages)
    (hs : Limits.leastPage ≤ p.pageSize.bytes) : p.Spacious := by
  intro slot
  have hn := slot.number.toNat_lt
  have hc : p.pages.capacity = Limits.pageChunks * Limits.pageChunkLength := by
    rw [h, Directory.capacity, Directory.chunkCount, emptyPages]
    simp only [Array.size_replicate]
  rw [hc, locate]
  refine (Nat.div_lt_iff_lt_mul p.pageSize.bytes_pos).mpr (Nat.lt_of_lt_of_le ?_ (Nat.mul_le_mul_left _ hs))
  -- slots have 32 bits, so the last page starts below byte 2³⁵
  simp only [Slot.byteOffset, Limits.stateBlockBytes, Limits.leastPage, Limits.pageChunks,
    Limits.pageChunkLength]
  omega

/-- What a pool is when it was just opened. -/
theorem of_openAt {system : System} {path : Path} {events : List Event}
    (h : openAt system path = ⟨.ok p, (), events⟩) : p.WellFormed ∧ p.Spacious := by
  unfold openAt at h
  split at h
  · cases h
  · split at h
    · cases h
    · next size hsize =>
        cases h
        exact ⟨wellFormed_of_pages_eq rfl,
          spacious_of_pages_eq rfl (PageAnswer.least_of_size? hsize)⟩

end SharedSync.Pool
