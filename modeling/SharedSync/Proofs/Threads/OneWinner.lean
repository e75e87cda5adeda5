import SharedSync.Proofs.Threads.Resources

/-!
# Threads — first touch has one winner

However threads that touch chunks and pages are interleaved, a cell gets one resource, and no
resource is lost or given back twice.

* `settled_eq`: the counters, short of what is still in progress.
* `mem_live_iff`: when no call is in progress, the live resources are those in the cells.
* `Sound.mem_pagesLeft`, `Sound.nodup_pagesLeft`: the pages that going away unmaps are those in
  the cells, each once.
* `one_winner`: so all calls for one place get one address, and no resource is lost.
-/

namespace SharedSync.FirstTouch

open Threads (Logged Step total)

variable {shape : Shape} {programs : List (List Request)} {log : List (Nat × Deed)}
  {s s' : Shared} {t t' : Thread} {deed : Option Deed} {i : Nat}

/-! ### Counters -/

/-- The chunks or the pages that were made. -/
def Deed.isMade (isPage : Bool) : Deed → Bool
  | made cell _ => cell.isPage == isPage
  | _ => false

/-- How many chunks, or pages, were made. -/
def madeIn (isPage : Bool) (log : List (Nat × Deed)) : Nat :=
  log.countP fun entry => entry.2.isMade isPage

/-- The chunks or the pages of a thread that are not counted yet. -/
def Thread.uncounted (isPage : Bool) (t : Thread) : Nat :=
  match t.current with
  | some (_, cell, .publish _) | some (_, cell, .countPublished _)
  | some (_, cell, .release ..) | some (_, cell, .countReleased _) => (cell.isPage == isPage).toNat
  | _ => 0

/-- What was counted as published or as released. -/
def Shared.settled (isPage : Bool) (s : Shared) : Nat :=
  (s.stock isPage).published + (s.stock isPage).released

theorem uncounted_gain (b : Bool) (t : Thread) (request : Request) (cell : Cell)
    (resource : Nat) : (t.gain shape request cell resource).uncounted b = 0 := by
  rcases gain_cases shape t request cell resource with ⟨_, -, hg⟩ | ⟨-, hg⟩
  · rw [hg]
    rfl
  · rw [hg]
    rfl

/-- What a change to one stock does to what was counted. -/
theorem settled_change (s : Shared) (b c : Bool) (f : Stock → Stock) :
    (s.change c f).settled b =
      if b = c then (f (s.stock b)).published + (f (s.stock b)).released else s.settled b := by
  rw [Shared.settled, stock_change]
  split <;> rfl

/-- A change that leaves these counters alone. -/
theorem settled_change_of_eq {f : Stock → Stock} (b c : Bool)
    (hf : ∀ k, (f k).published + (f k).released = k.published + k.released) :
    (s.change c f).settled b = s.settled b := by
  rw [settled_change]
  split
  · exact hf _
  · rfl

/-- A change that counts one resource. -/
theorem settled_change_of_succ {f : Stock → Stock} (b c : Bool)
    (hf : ∀ k, (f k).published + (f k).released = k.published + k.released + 1) :
    (s.change c f).settled b = s.settled b + (c == b).toNat := by
  rw [settled_change]
  by_cases hb : b = c
  · rw [if_pos hb, hf, hb, beq_self_eq_true]
    rfl
  · rw [if_neg hb, beq_eq_false_iff_ne.mpr (Ne.symm hb)]
    rfl

/-- A resource that is counted is one that was made and not counted yet. -/
theorem Moved.settled_eq (h : Moved shape s t deed s' t') (b : Bool) :
    s'.settled b + t'.uncounted b =
      s.settled b + t.uncounted b + deed.elim 0 fun d => (d.isMade b).toNat := by
  cases h with
  | beyond hc | arrive hc | empty hc | refuse hc | lose hc =>
      simp [Thread.uncounted, hc, Caller.finish, Caller.turn]
  | found hc =>
      rw [uncounted_gain]
      simp [Thread.uncounted, hc]
  | unbacked hc | countFailed hc =>
      rw [settled_change_of_eq b _ (by exact fun _ => rfl)]
      simp [Thread.uncounted, hc, Caller.finish]
  | make hc =>
      rw [show (s.make _).settled b = s.settled b from settled_change_of_eq b _ fun _ => rfl]
      simp [Thread.uncounted, hc, Caller.turn, Deed.isMade]
  | publish hc =>
      simp [Thread.uncounted, hc, Caller.turn, Deed.isMade, Shared.settled, stock_publish]
  | release hc =>
      rw [show (s.release _ _).settled b = s.settled b from settled_change_of_eq b _ fun _ => rfl]
      simp [Thread.uncounted, hc, Caller.turn, Deed.isMade]
  | countPublished hc =>
      rw [settled_change_of_succ b _ (by exact fun _ => Nat.add_right_comm ..), uncounted_gain]
      simp [Thread.uncounted, hc]
  | countReleased hc =>
      rw [settled_change_of_succ b _ (by exact fun _ => rfl), uncounted_gain]
      simp [Thread.uncounted, hc]

/-! ### Runs -/

section Runs

variable {c : Threads Shared Thread}

theorem fits_start (i : Nat) (t : Thread) (ht : (start programs).threads[i]? = some t) :
    Fits shape programs i [] (start programs).shared t := by
  obtain ⟨calls, hcalls, rfl⟩ := Caller.getElem?_start ht
  exact ⟨by simpa [Caller.calls] using hcalls, nofun, nofun, nofun⟩

/-- Nothing was touched, made or released. -/
theorem sound_start : Sound shape [] (start programs).shared where
  nodup := List.nodup_nil
  maker := nofun
  fresh := nofun
  entry cell r := ⟨nofun, nofun⟩
  published := nofun
  released := nofun
  apart := nofun
  nodup_live b := by cases b <;> exact List.nodup_nil
  live b r := by cases b <;> exact ⟨nofun, nofun⟩
  within := nofun

/-- **Cells and resources are sound and the calls fit, whatever the threads do.** -/
theorem sound_and_fits (h : Logged (step shape) deed? (start programs) log c) :
    Sound shape log c.shared ∧
      ∀ i t, c.threads[i]? = some t → Fits shape programs i log c.shared t :=
  Logged.keeps (kept shape programs) sound_start fits_start h

/-- Every resource that was made is counted, or its thread is about to count it. -/
theorem settled_eq (h : Logged (step shape) deed? (start programs) log c) (b : Bool) :
    c.shared.settled b + total (Thread.uncounted b) c.threads = madeIn b log := by
  have hbalance := h.balance (Shared.settled b) (Thread.uncounted b)
    (fun d => (d.isMade b).toNat) fun _ _ _ _ _ hstep => (moved_of_step hstep).settled_eq b
  have hstart : total (Thread.uncounted b) (start programs).threads = 0 := by
    refine Threads.total_eq_zero fun t ht => ?_
    obtain ⟨calls, rfl⟩ := Caller.mem_start ht
    rfl
  have hzero : (start programs).shared.settled b = 0 := by cases b <;> rfl
  rw [hstart, hzero, Threads.worth_toNat] at hbalance
  rw [madeIn]
  omega

/-- A step leaves a cell as it is, or fills an empty one with a resource of its thread. -/
theorem Moved.entry_cases (h : Moved shape s t deed s' t') (hf : Fits shape programs i log s t)
    (cell : Cell) : s'.entry cell = s.entry cell ∨
      (s.entry cell = none ∧ ∃ own, Owns i log cell own ∧ s'.entry cell = some own) := by
  cases h with
  | @publish request k own hc hnone =>
      by_cases hcell : cell = k
      · subst hcell
        obtain ⟨-, -, hown⟩ := hf.current _ _ _ hc
        exact .inr ⟨hnone, own, hown, entry_publish_self ..⟩
      · exact .inl (entry_publish_of_ne hcell ..)
  | make => exact .inl (congrFun (entry_make ..) cell)
  | release => exact .inl (congrFun (entry_release ..) cell)
  | beyond | arrive | found | empty | refuse | lose => exact .inl rfl
  | unbacked | countPublished | countReleased | countFailed =>
      exact .inl (congrFun (entry_change ..) cell)

/-! ### Going away -/

namespace Sound

variable (hs : Sound shape log s)
include hs

/-- A resource is in one cell. -/
theorem cell_eq {cell cell' : Cell} {r : Nat} (h : s.entry cell = some r)
    (h' : s.entry cell' = some r) : cell = cell' := by
  obtain ⟨i, hi⟩ := (hs.entry cell r).mp h
  obtain ⟨j, hj⟩ := (hs.entry cell' r).mp h'
  exact (hs.maker i j cell cell' r (hs.published _ _ _ hi) (hs.published _ _ _ hj)).2

omit hs in
/-- The pages of a chunk are those in its cells, if there is the chunk. -/
theorem mem_pagesIn {position r : Nat} : r ∈ s.pagesIn shape position ↔
    s.entry (.chunk position) ≠ none ∧
      ∃ number, number / shape.chunkLength = position ∧ s.entry (.page number) = some r := by
  rw [Shared.pagesIn]
  cases s.entry (.chunk position) with
  | none => simp
  | some chunk =>
      simp only [List.mem_filterMap, List.mem_range]
      constructor
      · rintro ⟨offset, hlt, he⟩
        refine ⟨Option.some_ne_none _, _, ?_, he⟩
        rw [Nat.mul_comm, Nat.mul_add_div shape.chunkLength_pos, Nat.div_eq_of_lt hlt,
          Nat.add_zero]
      · rintro ⟨-, number, rfl, he⟩
        exact ⟨number % shape.chunkLength, Nat.mod_lt _ shape.chunkLength_pos,
          by rwa [Nat.div_add_mod']⟩

/-- The pages left are those in some cell. -/
theorem mem_pagesLeft {r : Nat} :
    r ∈ s.pagesLeft shape ↔ ∃ number, s.entry (.page number) = some r := by
  simp only [Shared.pagesLeft, List.mem_flatMap, List.mem_range, mem_pagesIn]
  constructor
  · rintro ⟨position, -, -, number, -, he⟩
    exact ⟨number, he⟩
  · rintro ⟨number, he⟩
    obtain ⟨hlt, hchunk⟩ := hs.within _ r he
    exact ⟨_, hlt, hchunk, number, rfl, he⟩

/-- No page is left twice. -/
theorem nodup_pagesLeft : (s.pagesLeft shape).Nodup := by
  refine List.nodup_flatMap.mpr ⟨fun position _ => ?_, ?_⟩
  · rw [Shared.pagesIn]
    cases s.entry (.chunk position) with
    | none => exact List.nodup_nil
    | some chunk =>
        refine List.nodup_range.filterMap fun a b r ha hb => ?_
        exact Nat.add_left_cancel (Cell.page.inj (hs.cell_eq ha hb))
  · refine List.nodup_range.pairwise_of_forall_ne fun p _ q _ hne r hp hq => hne ?_
    obtain ⟨-, number, rfl, he⟩ := mem_pagesIn.mp hp
    obtain ⟨-, number', rfl, he'⟩ := mem_pagesIn.mp hq
    cases hs.cell_eq he he'
    rfl

/-- The chunks left are those in some cell. -/
theorem mem_chunksLeft {r : Nat} :
    r ∈ s.chunksLeft shape ↔ ∃ position, s.entry (.chunk position) = some r := by
  simp only [Shared.chunksLeft, List.mem_filterMap, List.mem_range]
  exact ⟨fun ⟨position, _, he⟩ => ⟨position, he⟩,
    fun ⟨position, he⟩ => ⟨position, hs.within _ r he, he⟩⟩

end Sound

/-- Taking away everything leaves nothing. -/
theorem foldl_erase_eq_nil {live gone : List Nat} (hlive : live.Nodup)
    (hgone : ∀ r ∈ live, r ∈ gone) : gone.foldl List.erase live = [] := by
  rw [← List.diff_eq_foldl, List.eq_nil_iff_forall_not_mem]
  intro r hr
  obtain ⟨hmem, hnot⟩ := hlive.mem_sdiff_iff.mp hr
  exact hnot (hgone r hmem)

/-- No call is in progress. -/
def AtRest (c : Threads Shared Thread) : Prop := ∀ t ∈ c.threads, t.current = none

/-- At rest, the live resources are those in the cells. -/
theorem mem_live_iff (h : Logged (step shape) deed? (start programs) log c) (hrest : AtRest c)
    (b : Bool) (r : Nat) : r ∈ (c.shared.stock b).live ↔
      ∃ cell, cell.isPage = b ∧ c.shared.entry cell = some r := by
  obtain ⟨hs, hfits⟩ := sound_and_fits h
  rw [hs.live]
  constructor
  · rintro ⟨i, cell, hb, hmade, hkept⟩
    refine ⟨cell, hb, (hs.entry cell r).mpr ⟨i, ?_⟩⟩
    obtain ⟨t, ht⟩ := h.exists_thread hmade
    have hnone := hrest t (List.mem_of_getElem? ht)
    rcases (hfits i t ht).fate cell r hmade with hp | hr | ⟨request, hheld | ⟨_, hheld⟩⟩
    · exact hp
    · exact absurd hr hkept
    · cases hnone.symm.trans hheld
    · cases hnone.symm.trans hheld
  · rintro ⟨cell, hb, he⟩
    obtain ⟨i, hi⟩ := (hs.entry cell r).mp he
    exact ⟨i, cell, hb, hs.published i cell r hi, hs.apart i i cell cell r hi⟩

/-- At rest, the chunks there are stand in cells. -/
theorem mem_chunks_iff (h : Logged (step shape) deed? (start programs) log c) (hrest : AtRest c)
    (r : Nat) : r ∈ c.shared.chunks.live ↔
      ∃ position, c.shared.entry (.chunk position) = some r := by
  refine (mem_live_iff h hrest false r).trans ⟨?_, fun ⟨position, he⟩ => ⟨_, rfl, he⟩⟩
  rintro ⟨cell, hb, he⟩
  cases cell with
  | chunk position => exact ⟨position, he⟩
  | page number => cases hb

/-- At rest, the pages there are stand in cells. -/
theorem mem_pages_iff (h : Logged (step shape) deed? (start programs) log c) (hrest : AtRest c)
    (r : Nat) : r ∈ c.shared.pages.live ↔ ∃ number, c.shared.entry (.page number) = some r := by
  refine (mem_live_iff h hrest true r).trans ⟨?_, fun ⟨number, he⟩ => ⟨_, rfl, he⟩⟩
  rintro ⟨cell, hb, he⟩
  cases cell with
  | chunk position => cases hb
  | page number => exact ⟨number, he⟩

/-- What holds while no call is in progress. -/
structure Rest (shape : Shape) (log : List (Nat × Deed)) (s : Shared) : Prop where
  /-- The chunks and the pages that are left are those in the cells, each in one cell. -/
  chunks : ∀ r, r ∈ s.chunks.live ↔ ∃ position, s.entry (.chunk position) = some r
  pages : ∀ r, r ∈ s.pages.live ↔ ∃ number, s.entry (.page number) = some r
  apart : ∀ cell cell' r, s.entry cell = some r → s.entry cell' = some r → cell = cell'
  /-- What was made is counted, as published or as released. -/
  chunks_made : s.chunks.published + s.chunks.released = madeIn false log
  pages_made : s.pages.published + s.pages.released = madeIn true log
  /-- Going away unmaps every page once, and nothing is left. -/
  unmapped_once : (s.pagesLeft shape).Nodup
  unmapped : ∀ r, r ∈ s.pagesLeft shape ↔ ∃ number, s.entry (.page number) = some r
  chunks_gone : (s.drop shape).chunks.live = []
  pages_gone : (s.drop shape).pages.live = []

/-- What there is at rest, and what is left once the pool has gone. -/
theorem rest (h : Logged (step shape) deed? (start programs) log c) (hrest : AtRest c) :
    Rest shape log c.shared := by
  obtain ⟨hs, -⟩ := sound_and_fits h
  have hcounted (b : Bool) : c.shared.settled b = madeIn b log := by
    have hzero : total (Thread.uncounted b) c.threads = 0 :=
      Threads.total_eq_zero fun t ht => by rw [Thread.uncounted, hrest t ht]
    rw [← settled_eq h b, hzero, Nat.add_zero]
  have hchunks := mem_chunks_iff h hrest
  have hpages := mem_pages_iff h hrest
  constructor
  case chunks => exact hchunks
  case pages => exact hpages
  case apart => exact fun _ _ _ => hs.cell_eq
  case chunks_made => exact hcounted false
  case pages_made => exact hcounted true
  case unmapped_once => exact hs.nodup_pagesLeft
  case unmapped => exact fun r => hs.mem_pagesLeft
  case chunks_gone =>
    exact foldl_erase_eq_nil (hs.nodup_live false) fun r hr =>
      hs.mem_chunksLeft.mpr ((hchunks r).mp hr)
  case pages_gone =>
    exact foldl_erase_eq_nil (hs.nodup_live true) fun r hr =>
      hs.mem_pagesLeft.mpr ((hpages r).mp hr)

/-! ### One winner -/

/-- What holds of cells and resources after a run of `programs`. -/
structure OneWinner (shape : Shape) (programs : List (List Request)) (log : List (Nat × Deed))
    (c : Threads Shared Thread) : Prop where
  /-- The next step, whichever it is, leaves a cell as it is, or fills an empty one with a
  resource that its thread made and did nothing with yet. -/
  moves : ∀ d, Step (step shape) c d → ∀ cell, d.shared.entry cell = c.shared.entry cell ∨
    (c.shared.entry cell = none ∧ ∃ i own, Owns i log cell own ∧ d.shared.entry cell = some own)
  /-- What is in a cell was published there, and nothing else was. -/
  filled : ∀ cell r, c.shared.entry cell = some r ↔ ∃ i, (i, .published cell r) ∈ log
  /-- A thread does nothing twice, and a resource is made by one thread, for one cell, -/
  once : log.Nodup
  made : ∀ i j cell cell' r, (i, .made cell r) ∈ log → (j, .made cell' r) ∈ log →
    i = j ∧ cell = cell'
  /-- which then publishes it there or releases it, or still holds it, -/
  fate : ∀ i cell r, (i, .made cell r) ∈ log →
    (i, .published cell r) ∈ log ∨ (i, .released cell r) ∈ log ∨
      (Owns i log cell r ∧ ∃ t, c.threads[i]? = some t ∧ t.Holds cell r)
  /-- and no other thread does, nor the thread both. -/
  published : ∀ i cell r, (i, .published cell r) ∈ log → (i, .made cell r) ∈ log
  released : ∀ i cell r, (i, .released cell r) ∈ log → (i, .made cell r) ∈ log
  apart : ∀ i j cell cell' r, (i, .published cell r) ∈ log → (j, .released cell' r) ∉ log
  /-- The calls of a thread are those it was given. -/
  calls : ∀ (i : Nat) t, c.threads[i]? = some t → programs[i]? = some t.calls
  /-- An address is the place asked for, in the resource that was published for it, -/
  returned : ∀ t ∈ c.threads, ∀ request address, (request, some address) ∈ t.ended →
    c.shared.entry (request.target shape) = some address.resource ∧
      address.offset = request.offset shape
  /-- so for one place all threads get one address, -/
  agree : ∀ t ∈ c.threads, ∀ u ∈ c.threads, ∀ request address address',
    (request, some address) ∈ t.ended → (request, some address') ∈ u.ended → address = address'
  /-- and none gets a resource that is not published. -/
  hidden : ∀ r, (∀ i cell, (i, .published cell r) ∉ log) → ∀ t ∈ c.threads,
    ∀ request address, (request, some address) ∈ t.ended → address.resource ≠ r
  rest : AtRest c → Rest shape log c.shared

/-- **However the threads are interleaved, first touch has one winner and loses nothing.** -/
theorem one_winner (h : Logged (step shape) deed? (start programs) log c) :
    OneWinner shape programs log c := by
  obtain ⟨hs, hfits⟩ := sound_and_fits h
  -- who gets an address gets it from the entry
  have hreturned : ∀ t ∈ c.threads, ∀ request address, (request, some address) ∈ t.ended →
      c.shared.entry (request.target shape) = some address.resource ∧
        address.offset = request.offset shape := by
    intro t ht request address
    obtain ⟨i, hi⟩ := List.mem_iff_getElem?.mp ht
    exact (hfits i t hi).ended request address
  constructor
  case moves =>
    rintro d ⟨answer, i, hmove⟩ cell
    obtain ⟨t, s', t', ht, hstep, rfl⟩ := Threads.move_eq_some_iff.mp hmove
    exact ((moved_of_step hstep).entry_cases (hfits i t ht) cell).imp_right
      fun ⟨hnone, own, hown⟩ => ⟨hnone, i, own, hown⟩
  case filled => exact hs.entry
  case once => exact hs.nodup
  case made => exact hs.maker
  case fate =>
    intro i cell r hmade
    obtain ⟨t, ht⟩ := h.exists_thread hmade
    have hf := hfits i t ht
    rcases hf.fate cell r hmade with hp | hr | ⟨request, hheld⟩
    · exact .inl hp
    · exact .inr (.inl hr)
    · refine .inr (.inr ⟨?_, t, ht, request, hheld⟩)
      rcases hheld with hheld | ⟨winner, hheld⟩
      · exact (hf.current _ _ _ hheld).2.2
      · exact (hf.current _ _ _ hheld).2.2.1
  case published => exact hs.published
  case released => exact hs.released
  case apart => exact hs.apart
  case calls => exact fun i t ht => (hfits i t ht).calls
  case returned => exact hreturned
  case agree =>
    intro t ht u hu request address address' hgot hgot'
    obtain ⟨he, hoffset⟩ := hreturned t ht request address hgot
    obtain ⟨he', hoffset'⟩ := hreturned u hu request address' hgot'
    cases address
    cases address'
    rw [Address.mk.injEq]
    exact ⟨Option.some.inj (he.symm.trans he'), hoffset.trans hoffset'.symm⟩
  case hidden =>
    rintro r hr t ht request address hgot rfl
    obtain ⟨i, hi⟩ := (hs.entry _ _).mp (hreturned t ht request address hgot).1
    exact hr i _ hi
  case rest => exact rest h

end Runs

/-- A pool of two chunks of one page each. -/
def twoPages : Shape := ⟨2, 1, 4096, by decide⟩

/-- Two threads race for one block, to the end. -/
theorem one_winner_small :
    ∃ log, Logged (step twoPages) deed? (start (List.replicate 2 [.block ⟨0⟩])) log
        (race twoPages 2 (.block ⟨0⟩)) ∧
      AtRest (race twoPages 2 (.block ⟨0⟩)) ∧
      OneWinner twoPages (List.replicate 2 [.block ⟨0⟩]) log (race twoPages 2 (.block ⟨0⟩)) := by
  obtain ⟨log, h⟩ := (Threads.reach_settle (step twoPages) enoughRounds
    (start (List.replicate 2 [.block ⟨0⟩]))).exists_logged deed?
  have hrest : AtRest (race twoPages 2 (.block ⟨0⟩)) := by
    unfold AtRest
    decide
  exact ⟨log, h, hrest, one_winner h⟩

end SharedSync.FirstTouch
