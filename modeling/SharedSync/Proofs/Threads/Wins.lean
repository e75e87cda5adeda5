import SharedSync.Proofs.HandleCache.FirstWriter
import SharedSync.Proofs.Threads.Logs
import SharedSync.Threads.Publication

/-!
# Threads — who may write a record

Threads add to the cache and look up in it, step by step and side by side.  The log of a run holds
the claims that succeeded (`Win`): a record belongs to the thread that won it, until that thread
has published it.

* `Moved`: what one step can do, with what it wins.
* `Sound`, `Fits`: the records are those of the log, and every thread's call is where the records
  say.  `Respects`: what a step leaves alone, so that the other threads' calls still fit.
* `kept`: every step keeps all that.
-/

namespace SharedSync.Publication

open HandleCache (Call key? key?_eq_some_iff)
open Limits (recordsPerBlock)
open Threads (Kept under)

variable {α : Type}

/-- An exchange that succeeded, and what its thread is about to publish. -/
structure Win (α : Type) where
  index : Nat
  kind : ObjectKind
  block : α

/-- What a step wins. -/
def win? (_ : Bool) (s : Shared α) (t : Thread α) : Option (Win α) :=
  match t.current with
  | some (_, index, .claim kind block) =>
      if (s.record index).tag = 0 then some ⟨index, kind, block⟩ else none
  | _ => none

/-- What one step can do, and what it wins. -/
inductive Moved (s : Shared α) : Thread α → Option (Win α) → Shared α → Thread α → Prop where
  | overflow {handle kind block todo ended} (h : s.index? handle = none) :
      Moved s ⟨.add handle kind block :: todo, none, ended⟩ none
        { s with overflowSkips := s.overflowSkips + 1 }
        ⟨todo, none, (.add handle kind block, none) :: ended⟩
  | outside {handle todo ended} (h : s.index? handle = none) :
      Moved s ⟨.lookup handle :: todo, none, ended⟩ none s
        ⟨todo, none, (.lookup handle, none) :: ended⟩
  | missing {handle index todo ended} (h : s.index? handle = some index)
      (hb : index / recordsPerBlock ∉ s.blocks) :
      Moved s ⟨.lookup handle :: todo, none, ended⟩ none s
        ⟨todo, none, (.lookup handle, none) :: ended⟩
  | arrive {handle kind block index todo ended} (h : s.index? handle = some index) :
      Moved s ⟨.add handle kind block :: todo, none, ended⟩ none (s.touch index)
        ⟨todo, some (.add handle kind block, index, .claim kind block), ended⟩
  | seek {handle index todo ended} (h : s.index? handle = some index) :
      Moved s ⟨.lookup handle :: todo, none, ended⟩ none s
        ⟨todo, some (.lookup handle, index, .loadTag), ended⟩
  | claim {call index kind block todo ended} (h : (s.record index).tag = 0) :
      Moved s ⟨todo, some (call, index, .claim kind block), ended⟩ (some ⟨index, kind, block⟩)
        (s.setRecord index { s.record index with tag := Record.claiming })
        ⟨todo, some (call, index, .storeBlock kind block), ended⟩
  | lose {call index kind block todo ended} (h : (s.record index).tag ≠ 0) :
      Moved s ⟨todo, some (call, index, .claim kind block), ended⟩ none s
        ⟨todo, some (call, index, .countLost), ended⟩
  | storeBlock {call index kind block todo ended} :
      Moved s ⟨todo, some (call, index, .storeBlock kind block), ended⟩ none
        (s.setRecord index { s.record index with block := some block })
        ⟨todo, some (call, index, .storeTag kind block), ended⟩
  | storeTag {call index kind block todo ended} :
      Moved s ⟨todo, some (call, index, .storeTag kind block), ended⟩ none
        (s.setRecord index { s.record index with tag := kind.tag })
        ⟨todo, some (call, index, .countPublish kind block), ended⟩
  | countPublish {call index kind block todo ended} :
      Moved s ⟨todo, some (call, index, .countPublish kind block), ended⟩ none
        { s with publishes := s.publishes + 1 }
        ⟨todo, none, (call, some (kind, block)) :: ended⟩
  | countLost {call index todo ended} :
      Moved s ⟨todo, some (call, index, .countLost), ended⟩ none
        { s with lostPublishes := s.lostPublishes + 1 }
        ⟨todo, some (call, index, .loadTag), ended⟩
  | unread {call index todo ended} (h : ObjectKind.ofTag? (s.record index).tag = none) :
      Moved s ⟨todo, some (call, index, .loadTag), ended⟩ none s
        ⟨todo, none, (call, none) :: ended⟩
  | readTag {call index kind todo ended}
      (h : ObjectKind.ofTag? (s.record index).tag = some kind) :
      Moved s ⟨todo, some (call, index, .loadTag), ended⟩ none s
        ⟨todo, some (call, index, .loadBlock kind), ended⟩
  | readBlock {call index kind todo ended} :
      Moved s ⟨todo, some (call, index, .loadBlock kind), ended⟩ none s
        ⟨todo, none, (call, (s.record index).block.map (kind, ·)) :: ended⟩

variable {n : Nat} {programs : List (List (Call α))} {log log' : List (Nat × Win α)}
  {s s' : Shared α} {t t' : Thread α} {w : Option (Win α)} {i : Nat} {answer : Bool}

/-- The first step of a call is one of the ways of moving. -/
theorem moved_begin {call : Call α} {todo : List (Call α)}
    {ended : List (Call α × Option (ObjectKind × α))} :
    Moved s ⟨call :: todo, none, ended⟩ none (begin s ⟨todo, none, ended⟩ call).1
      (begin s ⟨todo, none, ended⟩ call).2 := by
  cases call with
  | add handle kind block =>
      cases hi : s.index? handle with
      | none => simpa only [begin, Call.handle, hi] using .overflow hi
      | some index => simpa only [begin, Call.handle, hi] using .arrive hi
  | lookup handle =>
      cases hi : s.index? handle with
      | none => simpa only [begin, Call.handle, hi] using .outside hi
      | some index =>
          by_cases hb : index / recordsPerBlock ∈ s.blocks
          · simpa only [begin, Call.handle, hi, if_pos hb] using .seek hi
          · simpa only [begin, Call.handle, hi, if_neg hb] using .missing hi hb

/-- **A step does one of these.** -/
theorem moved_of_step (h : step answer s t = some (s', t')) :
    Moved s t (win? answer s t) s' t' := by
  -- the cases of the step itself: no call under way, or a phase of one
  obtain ⟨todo, current, ended⟩ := t
  rcases current with _ | ⟨call, index, phase⟩
  · cases todo with
    | nil => cases h
    | cons call todo =>
        have hb : begin s ⟨todo, none, ended⟩ call = (s', t') := Option.some.inj h
        have hm : Moved s ⟨call :: todo, none, ended⟩ none (begin s ⟨todo, none, ended⟩ call).1
          (begin s ⟨todo, none, ended⟩ call).2 := moved_begin
        rwa [hb] at hm
  · cases phase with
    | claim kind block =>
        by_cases hz : (s.record index).tag = 0
        · simp only [step, if_pos hz] at h
          cases h
          simpa only [win?, if_pos hz] using .claim hz
        · simp only [step, if_neg hz] at h
          cases h
          simpa only [win?, if_neg hz] using .lose hz
    | storeBlock kind block => cases h; exact .storeBlock
    | storeTag kind block => cases h; exact .storeTag
    | countPublish kind block => cases h; exact .countPublish
    | countLost => cases h; exact .countLost
    | loadTag =>
        cases hk : ObjectKind.ofTag? (s.record index).tag with
        | none =>
            simp only [step, hk] at h
            cases h
            exact .unread hk
        | some kind =>
            simp only [step, hk] at h
            cases h
            exact .readTag hk
    | loadBlock kind => cases h; exact .readBlock

theorem Moved.calls_eq (h : Moved s t w s' t') : t'.calls = t.calls := by
  cases h <;> simp [Caller.calls]

/-! ### Records and calls fit the log -/

/-- A record as its winner publishes it. -/
def Win.Published (w : Win α) (s : Shared α) : Prop :=
  s.record w.index = .published w.kind w.block

/-- The thread has won and has not published yet. -/
def Thread.Holds (t : Thread α) (w : Win α) : Prop :=
  ∃ call, t.current = some (call, w.index, .storeBlock w.kind w.block) ∨
    t.current = some (call, w.index, .storeTag w.kind w.block)

/-- The records are those that the log tells of. -/
structure Sound (n : Nat) (programs : List (List (Call α))) (log : List (Nat × Win α))
    (s : Shared α) : Prop where
  capacity : s.capacity = n * recordsPerBlock
  once : (log.map fun entry => entry.2.index).Nodup
  free : ∀ index, index ∉ log.map (fun entry => entry.2.index) → s.record index = {}
  taken : ∀ i w, (i, w) ∈ log → (s.record w.index).tag = Record.claiming ∨ w.Published s
  block : ∀ i w, (i, w) ∈ log → w.index / recordsPerBlock ∈ s.blocks
  offered : ∀ i w, (i, w) ∈ log → ∃ calls call, programs[i]? = some calls ∧ call ∈ calls ∧
    call.offer? n w.index = some (w.kind, w.block)

/-- What the call of thread `i` relies on. -/
def Phase.Fits (n i : Nat) (log : List (Nat × Win α)) (s : Shared α) (call : Call α)
    (index : Nat) : Phase α → Prop
  | claim kind block =>
      call.offer? n index = some (kind, block) ∧ index / recordsPerBlock ∈ s.blocks
  | storeBlock kind block =>
      (i, ⟨index, kind, block⟩) ∈ log ∧ (s.record index).tag = Record.claiming
  | storeTag kind block =>
      (i, ⟨index, kind, block⟩) ∈ log ∧
        s.record index = { tag := Record.claiming, block := some block }
  | countPublish kind block => s.record index = .published kind block
  | loadBlock kind => ∃ block, s.record index = .published kind block
  | countLost | loadTag => True

/-- The calls of thread `i` are where the log and the records say. -/
structure Fits (n : Nat) (programs : List (List (Call α))) (i : Nat) (log : List (Nat × Win α))
    (s : Shared α) (t : Thread α) : Prop where
  calls : programs[i]? = some t.calls
  wins : ∀ w, (i, w) ∈ log → w.Published s ∨ t.Holds w
  current : ∀ call index phase, t.current = some (call, index, phase) →
    key? n call.handle = some index ∧ phase.Fits n i log s call index
  ended : ∀ call kind block, (call, some (kind, block)) ∈ t.ended →
    ∃ index, key? n call.handle = some index ∧ s.record index = .published kind block

/-- What thread `i` leaves alone in a step: what is published, and what another thread won. -/
structure Respects (i : Nat) (log : List (Nat × Win α)) (s : Shared α)
    (log' : List (Nat × Win α)) (s' : Shared α) : Prop where
  capacity : s'.capacity = s.capacity
  logged : ∀ j w, (j, w) ∈ log → (j, w) ∈ log'
  own : ∀ j w, (j, w) ∈ log' → j ≠ i → (j, w) ∈ log
  blocks : ∀ b ∈ s.blocks, b ∈ s'.blocks
  published : ∀ index kind block, s.record index = .published kind block →
    s'.record index = .published kind block
  won : ∀ j w, (j, w) ∈ log → j ≠ i → s'.record w.index = s.record w.index

theorem tag_ne_zero (kind : ObjectKind) : kind.tag ≠ 0 := by cases kind; decide

theorem tag_ne_claiming (kind : ObjectKind) : kind.tag ≠ Record.claiming := by cases kind; decide

/-- A record tells what was published in it. -/
theorem published_inj {k k' : ObjectKind} {b b' : α}
    (h : Record.published k b = .published k' b') : k = k' ∧ b = b' := by
  have hl := congrArg Record.load h
  rw [Record.load_published, Record.load_published] at hl
  cases hl
  exact ⟨rfl, rfl⟩

/-- Threads find the record that a cache of this size has for the handle. -/
theorem index?_eq_key? (hs : s.capacity = n * recordsPerBlock) (handle : Handle) :
    s.index? handle = key? n handle := by
  ext index
  rw [key?_eq_some_iff, Shared.index?, Option.filter_eq_some_iff, hs, decide_eq_true_iff]

/-- What an addition offers, and where. -/
theorem offer?_eq_some_iff {call : Call α} {index : Nat} {kind : ObjectKind} {block : α} :
    call.offer? n index = some (kind, block) ↔
      ∃ handle, call = .add handle kind block ∧ key? n handle = some index := by
  cases call with
  | lookup handle => simp [Call.offer?]
  | add handle kind' block' =>
      rw [Call.offer?, Option.ite_none_right_eq_some, Option.some.injEq]
      constructor
      · rintro ⟨hk, he⟩
        cases he
        exact ⟨handle, rfl, hk⟩
      · rintro ⟨_, hc, hk⟩
        cases hc
        exact ⟨hk, rfl⟩

@[simp]
theorem record_setRecord_self (s : Shared α) (index : Nat) (record : Record α) :
    (s.setRecord index record).record index = record := if_pos rfl

theorem record_setRecord_of_ne {index j : Nat} (h : j ≠ index) (s : Shared α)
    (record : Record α) : (s.setRecord index record).record j = s.record j := if_neg h

namespace Respects

theorem of_eq {s' : Shared α} (hcapacity : s'.capacity = s.capacity)
    (hrecord : s'.record = s.record) (hblocks : ∀ b ∈ s.blocks, b ∈ s'.blocks) :
    Respects i log s log s' where
  capacity := hcapacity
  logged _ _ h := h
  own _ _ h _ := h
  blocks := hblocks
  published index kind block h := by rw [hrecord, h]
  won _ _ _ _ := by rw [hrecord]

/-- A thread may write a record that no other thread has won and that is not published. -/
theorem of_setRecord {index : Nat} {record : Record α}
    (hother : ∀ j w, (j, w) ∈ log → j ≠ i → w.index ≠ index)
    (hopen : ∀ kind block, s.record index ≠ .published kind block)
    (hlogged : ∀ j w, (j, w) ∈ log → (j, w) ∈ log')
    (hown : ∀ j w, (j, w) ∈ log' → j ≠ i → (j, w) ∈ log) :
    Respects i log s log' (s.setRecord index record) where
  capacity := rfl
  logged := hlogged
  own := hown
  blocks _ h := h
  published k kind block h := by
    have hk : k ≠ index := by
      rintro rfl
      exact hopen kind block h
    rw [record_setRecord_of_ne hk, h]
  won j w hw hj := record_setRecord_of_ne (hother j w hw hj) s record

end Respects

namespace Sound

variable (hs : Sound n programs log s)
include hs

/-- A record is won once. -/
theorem unique {j k : Nat} {w w' : Win α} (hw : (j, w) ∈ log) (hw' : (k, w') ∈ log)
    (hindex : w.index = w'.index) : j = k ∧ w = w' := by
  have h := List.inj_on_of_nodup_map hs.once hw hw' hindex
  cases h
  exact ⟨rfl, rfl⟩

/-- A record that was won is not free. -/
theorem tag_ne_zero_of_mem {j : Nat} {w : Win α} (hw : (j, w) ∈ log) :
    (s.record w.index).tag ≠ 0 := by
  rcases hs.taken j w hw with htag | hpublished
  · rw [htag]
    decide
  · rw [show s.record w.index = _ from hpublished]
    exact tag_ne_zero w.kind

/-- A published record is the one its winner offered. -/
theorem exists_mem_of_published {index : Nat} {kind : ObjectKind} {block : α}
    (h : s.record index = .published kind block) :
    ∃ j, (j, (⟨index, kind, block⟩ : Win α)) ∈ log := by
  have hmem : index ∈ log.map fun entry => entry.2.index := by
    by_contra hfree
    rw [hs.free index hfree] at h
    exact tag_ne_zero kind (congrArg Record.tag h).symm
  obtain ⟨⟨j, w⟩, hw, rfl⟩ := List.mem_map.mp hmem
  refine ⟨j, ?_⟩
  rcases hs.taken j w hw with htag | hpublished
  · rw [h] at htag
    exact absurd htag (tag_ne_claiming kind)
  · obtain ⟨rfl, rfl⟩ := published_inj (h.symm.trans hpublished)
    exact hw

/-- Only the tag of a published record is a kind's. -/
theorem exists_published {index : Nat} {kind : ObjectKind}
    (h : ObjectKind.ofTag? (s.record index).tag = some kind) :
    ∃ block, s.record index = .published kind block := by
  by_cases hmem : index ∈ log.map fun entry => entry.2.index
  · obtain ⟨⟨j, w⟩, hw, rfl⟩ := List.mem_map.mp hmem
    rcases hs.taken j w hw with htag | hpublished
    · rw [htag] at h
      cases h
    · have htag : (s.record w.index).tag = w.kind.tag := congrArg Record.tag hpublished
      rw [htag, ObjectKind.ofTag?_tag] at h
      exact ⟨w.block, Option.some.inj h ▸ hpublished⟩
  · rw [hs.free index hmem] at h
    cases h

/-- The log and the records stay. -/
theorem of_eq {s' : Shared α} (hcapacity : s'.capacity = s.capacity)
    (hrecord : s'.record = s.record) (hblocks : ∀ b ∈ s.blocks, b ∈ s'.blocks) :
    Sound n programs log s' where
  capacity := hcapacity.trans hs.capacity
  once := hs.once
  free := hrecord ▸ hs.free
  taken i w hw := by
    rw [Win.Published, hrecord]
    exact hs.taken i w hw
  block i w hw := hblocks _ (hs.block i w hw)
  offered := hs.offered

/-- A winner writes its record. -/
theorem of_own {w : Win α} (hw : (i, w) ∈ log) {record : Record α}
    (hrecord : record.tag = Record.claiming ∨ record = .published w.kind w.block) :
    Sound n programs log (s.setRecord w.index record) where
  capacity := hs.capacity
  once := hs.once
  free index hfree := by
    have hne : index ≠ w.index := by
      rintro rfl
      exact hfree (List.mem_map.mpr ⟨_, hw, rfl⟩)
    rw [record_setRecord_of_ne hne, hs.free index hfree]
  taken j v hv := by
    rw [Win.Published]
    by_cases hne : v.index = w.index
    · obtain ⟨-, rfl⟩ := hs.unique hv hw hne
      rwa [record_setRecord_self]
    · rw [record_setRecord_of_ne hne]
      exact hs.taken j v hv
  block := hs.block
  offered := hs.offered

/-- A thread wins a record that was free. -/
theorem of_claim {w : Win α} (hfree : w.index ∉ log.map fun entry => entry.2.index)
    (hblock : w.index / recordsPerBlock ∈ s.blocks)
    (hoffer : ∃ calls call, programs[i]? = some calls ∧ call ∈ calls ∧
      call.offer? n w.index = some (w.kind, w.block)) :
    Sound n programs ((i, w) :: log)
      (s.setRecord w.index { s.record w.index with tag := Record.claiming }) where
  capacity := hs.capacity
  once := List.nodup_cons.mpr ⟨hfree, hs.once⟩
  free index hnew := by
    rw [List.map_cons, List.mem_cons, not_or] at hnew
    rw [record_setRecord_of_ne hnew.1, hs.free index hnew.2]
  taken j v hv := by
    rcases List.mem_cons.mp hv with hv | hv
    · cases hv
      exact .inl (by rw [record_setRecord_self])
    · have hne : v.index ≠ w.index := fun he => hfree (he ▸ List.mem_map.mpr ⟨_, hv, rfl⟩)
      rw [Win.Published, record_setRecord_of_ne hne]
      exact hs.taken j v hv
  block j v hv := by
    rcases List.mem_cons.mp hv with hv | hv
    · cases hv
      exact hblock
    · exact hs.block j v hv
  offered j v hv := by
    rcases List.mem_cons.mp hv with hv | hv
    · cases hv
      exact hoffer
    · exact hs.offered j v hv

end Sound

/-! ### A step keeps it all -/

theorem mem_touch (s : Shared α) (index : Nat) :
    index / recordsPerBlock ∈ (s.touch index).blocks := by
  simp only [Shared.touch]
  split
  · assumption
  · exact List.mem_cons_self

theorem mem_touch_of_mem {b : Nat} (h : b ∈ s.blocks) (index : Nat) :
    b ∈ (s.touch index).blocks := by
  simp only [Shared.touch]
  split
  · exact h
  · exact List.mem_cons_of_mem _ h

namespace Moved

variable (h : Moved s t w s' t') (hs : Sound n programs log s) (hf : Fits n programs i log s t)
include h hs hf

/-- What the other threads rely on stays. -/
theorem respects : Respects i log s (under i w ++ log) s' := by
  -- a record that the thread has won is no other thread's, and not published yet
  have own {v : Win α} {record : Record α} (hv : (i, v) ∈ log)
      (htag : (s.record v.index).tag = Record.claiming) :
      Respects i log s log (s.setRecord v.index record) := by
    refine .of_setRecord (fun j u hu hj he => hj (hs.unique hu hv he).1) (fun kind block hp => ?_)
      (fun _ _ hu => hu) (fun _ _ hu _ => hu)
    rw [hp] at htag
    exact tag_ne_claiming kind htag
  cases h with
  | arrive hi => exact .of_eq rfl rfl fun b hb => mem_touch_of_mem hb _
  | claim hz =>
      refine .of_setRecord (fun j u hu _ he => ?_) (fun kind block hp => ?_)
        (fun _ _ hu => List.mem_cons_of_mem _ hu) (fun j u hu hj => ?_)
      · rw [← he] at hz
        exact hs.tag_ne_zero_of_mem hu hz
      · rw [hp] at hz
        exact tag_ne_zero kind hz
      · rcases List.mem_cons.mp hu with hu | hu
        · cases hu
          exact absurd rfl hj
        · exact hu
  | storeBlock =>
      obtain ⟨-, hw, htag⟩ := hf.current _ _ _ rfl
      exact own hw htag
  | storeTag =>
      obtain ⟨-, hw, hrecord⟩ := hf.current _ _ _ rfl
      exact own hw (congrArg Record.tag hrecord)
  | _ => exact .of_eq rfl rfl fun _ hb => hb

/-- A step keeps the records true to the log. -/
theorem sound : Sound n programs (under i w ++ log) s' := by
  cases h with
  | arrive hi => exact hs.of_eq rfl rfl fun b hb => mem_touch_of_mem hb _
  | @claim call index kind block todo ended hz =>
      obtain ⟨-, hoffer, hblock⟩ := hf.current _ _ _ rfl
      refine hs.of_claim (fun hmem => ?_) hblock ⟨_, call, hf.calls, ?_, hoffer⟩
      · obtain ⟨⟨j, u⟩, hu, he⟩ := List.mem_map.mp hmem
        rw [show index = u.index from he.symm] at hz
        exact hs.tag_ne_zero_of_mem hu hz
      · simp [Caller.calls]
  | storeBlock =>
      obtain ⟨-, hw, htag⟩ := hf.current _ _ _ rfl
      exact hs.of_own hw (.inl htag)
  | storeTag =>
      obtain ⟨-, hw, hrecord⟩ := hf.current _ _ _ rfl
      exact hs.of_own hw (.inr (by rw [hrecord]; rfl))
  | _ => exact hs.of_eq rfl rfl fun _ hb => hb

/-- What the thread has won is published, or the thread is still at it. -/
theorem wins (v : Win α) (hv : (i, v) ∈ under i w ++ log) :
    v.Published s' ∨ t'.Holds v := by
  rcases List.mem_append.mp hv with hnew | hold
  · cases h with
    | claim hz =>
        cases List.mem_singleton.mp hnew
        exact .inr ⟨_, .inl rfl⟩
    | _ => cases hnew
  · rcases hf.wins v hold with hpublished | ⟨call, hholds | hholds⟩
    · exact .inl ((h.respects hs hf).published _ _ _ hpublished)
    · cases h <;> cases hholds
      exact .inr ⟨_, .inr rfl⟩
    · cases h <;> cases hholds
      obtain ⟨-, -, hrecord⟩ := hf.current _ _ _ rfl
      exact .inl (by rw [Win.Published, record_setRecord_self, hrecord, Record.published])

/-- What a call is at after the step. -/
theorem current (call : Call α) (index : Nat) (phase : Phase α)
    (hc : t'.current = some (call, index, phase)) :
    key? n call.handle = some index ∧
      phase.Fits n i (under i w ++ log) s' call index := by
  cases h <;> cases hc
  case arrive handle kind block _ _ hi =>
    rw [index?_eq_key? hs.capacity] at hi
    exact ⟨hi, offer?_eq_some_iff.mpr ⟨_, rfl, hi⟩, mem_touch s _⟩
  case seek hi => exact ⟨index?_eq_key? hs.capacity _ ▸ hi, trivial⟩
  case claim hz =>
    obtain ⟨hk, -⟩ := hf.current _ _ _ rfl
    exact ⟨hk, List.mem_cons_self, by rw [record_setRecord_self]⟩
  case lose hz => exact ⟨(hf.current _ _ _ rfl).1, trivial⟩
  case storeBlock =>
    obtain ⟨hk, hw, htag⟩ := hf.current _ _ _ rfl
    exact ⟨hk, hw, (record_setRecord_self ..).trans (congrArg (Record.mk · _) htag)⟩
  case storeTag =>
    obtain ⟨hk, hw, hrecord⟩ := hf.current _ _ _ rfl
    exact ⟨hk, by rw [Phase.Fits, record_setRecord_self, hrecord, Record.published]⟩
  case countLost => exact ⟨(hf.current _ _ _ rfl).1, trivial⟩
  case readTag hkind => exact ⟨(hf.current _ _ _ rfl).1, hs.exists_published hkind⟩

/-- What ended calls got is published. -/
theorem ended (call : Call α) (kind : ObjectKind) (block : α)
    (he : (call, some (kind, block)) ∈ t'.ended) :
    ∃ index, key? n call.handle = some index ∧ s'.record index = .published kind block := by
  have old (hold : (call, some (kind, block)) ∈ t.ended) : ∃ index,
      key? n call.handle = some index ∧ s'.record index = .published kind block := by
    obtain ⟨index, hk, hrecord⟩ := hf.ended _ _ _ hold
    exact ⟨index, hk, (h.respects hs hf).published _ _ _ hrecord⟩
  cases h with
  | overflow | outside | missing | unread =>
      rcases List.mem_cons.mp he with he | he
      · cases he
      · exact old he
  | countPublish =>
      rcases List.mem_cons.mp he with he | he
      · cases he
        obtain ⟨hk, hrecord⟩ := hf.current _ _ _ rfl
        exact ⟨_, hk, hrecord⟩
      · exact old he
  | readBlock =>
      rcases List.mem_cons.mp he with he | he
      · -- the tag was read when the record was published, so the block is the one behind it
        obtain ⟨hk, block', hrecord⟩ := hf.current _ _ _ rfl
        rw [hrecord] at he
        cases he
        exact ⟨_, hk, hrecord⟩
      · exact old he
  | _ => exact old he

/-- A step leaves its own thread true to the log. -/
theorem fits : Fits n programs i (under i w ++ log) s' t' where
  calls := h.calls_eq ▸ hf.calls
  wins := h.wins hs hf
  current := h.current hs hf
  ended := h.ended hs hf

end Moved

/-- A thread's calls fit after the step of another thread. -/
theorem Fits.of_respects {j : Nat} (hr : Respects i log s log' s') (hj : j ≠ i)
    (hf : Fits n programs j log s t) : Fits n programs j log' s' t where
  calls := hf.calls
  wins v hv := (hf.wins v (hr.own j v hv hj)).imp (hr.published _ _ _) id
  current call index phase hc := by
    obtain ⟨hk, hphase⟩ := hf.current call index phase hc
    refine ⟨hk, ?_⟩
    cases phase with
    | claim kind block => exact ⟨hphase.1, hr.blocks _ hphase.2⟩
    | storeBlock kind block =>
        exact ⟨hr.logged _ _ hphase.1, by rw [hr.won j _ hphase.1 hj, hphase.2]⟩
    | storeTag kind block =>
        exact ⟨hr.logged _ _ hphase.1, by rw [hr.won j _ hphase.1 hj, hphase.2]⟩
    | countPublish kind block => exact hr.published _ _ _ hphase
    | loadBlock kind => exact hphase.imp fun block => hr.published _ _ _
    | _ => trivial
  ended call kind block he :=
    (hf.ended call kind block he).imp fun _ h => ⟨h.1, hr.published _ _ _ h.2⟩

/-- **Every step keeps the records sound and the calls of all threads fit.** -/
theorem kept (n : Nat) (programs : List (List (Call α))) :
    Kept step win? (Sound n programs) (Fits n programs) where
  own hs hf h :=
    have hm := moved_of_step h
    ⟨hm.sound hs hf, hm.fits hs hf⟩
  other hs hf h hj hu := hu.of_respects ((moved_of_step h).respects hs hf) hj

end SharedSync.Publication
