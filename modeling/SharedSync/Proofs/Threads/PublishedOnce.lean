import Mathlib.Data.Finset.Card
import Mathlib.Data.Finset.Range
import SharedSync.Proofs.Threads.Wins

/-!
# Threads — a record is published once

Whatever threads add to the cache and look up in it, and however their steps are interleaved, a
record is claimed once, and published by the thread that claimed it.

* `Thread.effort`: every call ends after a few steps of its thread, whatever the others do.
* `publishes_eq`, `additions_eq`: the counters, short of what is still in progress.
* `answered_of_reach`: from the publication of a record on, every call that ends gets it.
* `published_once`: so every call that sees a record sees what its winner offered, from the first
  such call on all do, and the counters are those of the records.
-/

namespace SharedSync.Publication

open HandleCache (Call key? key?_eq_some_iff)
open Threads (Logged Reach Step move total worth)

variable {α : Type} {n : Nat} {programs : List (List (Call α))} {log : List (Nat × Win α)}
  {s s' : Shared α} {t t' : Thread α} {w : Option (Win α)} {i : Nat}

/-! ### Calls end -/

/-- No calls are left. -/
def Thread.Finished (t : Thread α) : Prop := t.todo = [] ∧ t.current = none

/-- How many steps a call still takes, at most. -/
def Phase.effort : Phase α → Nat
  | claim .. => 4
  | storeBlock .. => 3
  | storeTag .. => 2
  | countPublish .. => 1
  | countLost => 3
  | loadTag => 2
  | loadBlock _ => 1

/-- How many steps a thread still takes, at most. -/
def Thread.effort (t : Thread α) : Nat :=
  5 * t.todo.length + (t.current.map fun current => current.2.2.effort).getD 0

/-- Every step brings its thread nearer to its end. -/
theorem Moved.effort_lt (h : Moved s t w s' t') : t'.effort < t.effort := by
  cases h <;> simp [Thread.effort, Phase.effort] <;> omega

/-- A thread that has not finished can move, whatever the others do. -/
theorem exists_step (h : ¬ t.Finished) (answer : Bool) (s : Shared α) :
    ∃ s' t', step answer s t = some (s', t') := by
  obtain ⟨todo, current, ended⟩ := t
  rcases current with _ | ⟨call, index, phase⟩
  · cases todo with
    | nil => exact absurd ⟨rfl, rfl⟩ h
    | cons call todo => exact ⟨_, _, rfl⟩
  · cases phase with
    | claim kind block =>
        simp only [step]
        split <;> exact ⟨_, _, rfl⟩
    | loadTag =>
        simp only [step]
        split <;> exact ⟨_, _, rfl⟩
    | _ => exact ⟨_, _, rfl⟩

/-! ### Counters -/

/-- The records a thread has claimed and not counted. -/
def Thread.uncounted (t : Thread α) : Nat :=
  match t.current with
  | some (_, _, .storeBlock ..) | some (_, _, .storeTag ..) | some (_, _, .countPublish ..) => 1
  | _ => 0

/-- The additions of a thread that are not counted yet. -/
def Thread.additions (t : Thread α) : Nat :=
  t.todo.countP Call.isAdd +
    match t.current with
    | none | some (_, _, .loadTag) | some (_, _, .loadBlock _) => 0
    | _ => 1

/-- A win is counted, or its thread is about to count it. -/
theorem Moved.publishes_eq (h : Moved s t w s' t') :
    s'.publishes + t'.uncounted = s.publishes + t.uncounted + w.elim 0 fun _ => 1 := by
  cases h <;> rfl

/-- Every addition is counted once, in one of three ways. -/
theorem Moved.additions_eq (h : Moved s t w s' t') :
    s'.publishes + s'.lostPublishes + s'.overflowSkips + t'.additions =
      s.publishes + s.lostPublishes + s.overflowSkips + t.additions := by
  cases h <;>
    simp [Thread.additions, List.countP_cons, Call.isAdd, Shared.touch, Shared.setRecord] <;> omega

section Runs

variable {c d : Threads (Shared α) (Thread α)}

theorem fits_start (i : Nat) (t : Thread α) (ht : (start n programs).threads[i]? = some t) :
    Fits n programs i [] (start n programs).shared t := by
  obtain ⟨calls, hcalls, rfl⟩ := Caller.getElem?_start ht
  exact ⟨by simpa [Caller.calls] using hcalls, nofun, nofun, nofun⟩

theorem sound_start : Sound n programs [] (start n programs).shared :=
  ⟨rfl, List.nodup_nil, fun _ _ => rfl, nofun, nofun, nofun⟩

/-- **The records are sound and the calls fit, whatever the threads do.** -/
theorem sound_and_fits (h : Logged step win? (start n programs) log c) :
    Sound n programs log c.shared ∧
      ∀ i t, c.threads[i]? = some t → Fits n programs i log c.shared t :=
  Logged.keeps (kept n programs) sound_start fits_start h

/-- The wins counted, and those about to be, are the wins of the log. -/
theorem publishes_eq (h : Logged step win? (start n programs) log c) :
    c.shared.publishes + total Thread.uncounted c.threads = log.length := by
  have hstart : total Thread.uncounted (start n programs).threads = 0 := by
    refine Threads.total_eq_zero fun t ht => ?_
    obtain ⟨calls, rfl⟩ := Caller.mem_start ht
    rfl
  have hbalance := h.balance (fun s => s.publishes) Thread.uncounted (fun _ => 1)
    fun _ _ _ _ _ hstep => (moved_of_step hstep).publishes_eq
  have hworth : worth (fun _ : Win α => 1) log = log.length := by simp [worth]
  rw [hstart, hworth, show (start n programs).shared.publishes = 0 from rfl] at hbalance
  omega

/-- The additions counted, and those still to come, are the additions of the programs. -/
theorem additions_eq (h : Logged step win? (start n programs) log c) :
    c.shared.publishes + c.shared.lostPublishes + c.shared.overflowSkips +
      total Thread.additions c.threads = (programs.map (List.countP Call.isAdd)).sum := by
  have hbalance := h.balance (fun s => s.publishes + s.lostPublishes + s.overflowSkips)
    Thread.additions (fun _ => 0) fun answer s t s' t' hstep => by
      rw [(moved_of_step hstep).additions_eq]
      cases win? answer s t <;> rfl
  have hworth : worth (fun _ : Win α => 0) log = 0 := by simp [worth]
  have hstart : total Thread.additions (start n programs).threads =
      (programs.map (List.countP Call.isAdd)).sum := by
    rw [total, start, Caller.start, List.map_map]
    rfl
  rw [hworth, hstart] at hbalance
  exact hbalance.trans (by simp [start])

/-! ### What calls see -/

/-- What the calls that ended between two states of a thread got: those for `index` the pair. -/
def Answered (n index : Nat) (kind : ObjectKind) (block : α) (t t' : Thread α) : Prop :=
  ∃ new, t'.ended = new ++ t.ended ∧ ∀ call result, (call, result) ∈ new →
    key? n call.handle = some index → result = some (kind, block)

/-- A call that ends once a record is published is answered with it. -/
theorem Moved.answered (h : Moved s t w s' t') (hs : Sound n programs log s)
    (hf : Fits n programs i log s t) {index : Nat} {kind : ObjectKind} {block : α}
    (hp : s.record index = .published kind block) : Answered n index kind block t t' := by
  have one {call : Call α} {result : Option (ObjectKind × α)} (he : t'.ended = (call, result) ::
      t.ended) (hr : key? n call.handle = some index → result = some (kind, block)) :
      Answered n index kind block t t' := by
    refine ⟨[(call, result)], he, fun call' result' hmem => ?_⟩
    cases List.mem_singleton.mp hmem
    exact hr
  cases h with
  | overflow hi | outside hi =>
      refine one rfl fun hk => ?_
      rw [index?_eq_key? hs.capacity] at hi
      exact absurd (hi.symm.trans hk) nofun
  | missing hi hb =>
      -- who won the record has found its block
      refine one rfl fun hk => ?_
      rw [index?_eq_key? hs.capacity] at hi
      cases hi.symm.trans hk
      obtain ⟨j, hw⟩ := hs.exists_mem_of_published hp
      exact absurd (hs.block j _ hw) hb
  | countPublish =>
      refine one rfl fun hk => ?_
      obtain ⟨hk', hrecord⟩ := hf.current _ _ _ rfl
      cases hk'.symm.trans hk
      obtain ⟨rfl, rfl⟩ := published_inj (hp.symm.trans hrecord)
      rfl
  | unread hz =>
      refine one rfl fun hk => ?_
      obtain ⟨hk', -⟩ := hf.current _ _ _ rfl
      cases hk'.symm.trans hk
      rw [hp] at hz
      exact absurd ((ObjectKind.ofTag?_tag kind).symm.trans hz) nofun
  | readBlock =>
      refine one rfl fun hk => ?_
      obtain ⟨hk', block', hrecord⟩ := hf.current _ _ _ rfl
      cases hk'.symm.trans hk
      obtain ⟨rfl, rfl⟩ := published_inj (hp.symm.trans hrecord)
      rw [hp]
      rfl
  | _ => exact ⟨[], rfl, nofun⟩

/-- From the publication of a record on, every call for it that ends gets what was published. -/
theorem answered_of_reach (h : Logged step win? (start n programs) log c) (hr : Reach step c d)
    {index : Nat} {kind : ObjectKind} {block : α}
    (hp : c.shared.record index = .published kind block) :
    d.shared.record index = .published kind block ∧
      ∀ (i : Nat) t t', c.threads[i]? = some t → d.threads[i]? = some t' →
        Answered n index kind block t t' := by
  -- over the steps behind `c`: each is taken from a state where the record is published
  induction hr with
  | refl =>
      refine ⟨hp, fun i t t' ht ht' => ⟨[], ?_, nofun⟩⟩
      cases ht.symm.trans ht'
      rfl
  | @tail d e hd hstep ih =>
      obtain ⟨new, hlog⟩ := h.of_reach hd
      obtain ⟨hs, hfits⟩ := sound_and_fits hlog
      obtain ⟨hpd, hanswered⟩ := ih
      obtain ⟨answer, k, hmove⟩ := hstep
      obtain ⟨u, s', u', hu, hone, rfl⟩ := Threads.move_eq_some_iff.mp hmove
      have hm := moved_of_step hone
      have hf := hfits k u hu
      refine ⟨(hm.respects hs hf).published _ _ _ hpd, fun i t t' ht ht' => ?_⟩
      obtain ⟨rfl, rfl⟩ | ⟨-, hi⟩ := Threads.getElem?_set_cases ht'
      · obtain ⟨before, hbefore, hall⟩ := hanswered i t u ht hu
        obtain ⟨after, hafter, hlast⟩ := hm.answered hs hf hpd
        refine ⟨after ++ before, by rw [hafter, hbefore, List.append_assoc], ?_⟩
        intro call result hmem
        exact (List.mem_append.mp hmem).elim (hlast call result) (hall call result)
      · exact hanswered i t t' ht hi

/-- The moves of a record's tag. -/
inductive TagMove : UInt32 → UInt32 → Prop where
  | stay (tag : UInt32) : TagMove tag tag
  | claim : TagMove 0 Record.claiming
  | publish (kind : ObjectKind) : TagMove Record.claiming kind.tag

/-- A tag moves from free to claimed to published, and never back. -/
theorem Moved.tagMove (h : Moved s t w s' t') (hf : Fits n programs i log s t) (index : Nat) :
    TagMove (s.record index).tag (s'.record index).tag := by
  have stay {k : Nat} {record : Record α} (hk : index ≠ k) :
      TagMove (s.record index).tag ((s.setRecord k record).record index).tag := by
    rw [record_setRecord_of_ne hk]
    exact .stay _
  cases h with
  | @claim call k kind block todo ended hz =>
      by_cases hk : index = k
      · subst hk
        rw [record_setRecord_self, hz]
        exact .claim
      · exact stay hk
  | @storeBlock call k kind block todo ended =>
      by_cases hk : index = k
      · subst hk
        rw [record_setRecord_self]
        exact .stay _
      · exact stay hk
  | @storeTag call k kind block todo ended =>
      by_cases hk : index = k
      · subst hk
        obtain ⟨-, -, hrecord⟩ := hf.current _ _ _ rfl
        rw [record_setRecord_self, hrecord]
        exact .publish kind
      · exact stay hk
  | _ => exact .stay _

/-- The indices whose records can be read. -/
def Shared.published (s : Shared α) : Finset Nat :=
  (Finset.range s.capacity).filter fun index => (s.record index).load.isSome

/-- There are as many wins as published records. -/
theorem length_eq_card_published (hs : Sound n programs log s)
    (hw : ∀ i w, (i, w) ∈ log → w.Published s) : log.length = s.published.card := by
  have hmem : s.published = (log.map fun entry => entry.2.index).toFinset := by
    ext index
    rw [Shared.published, Finset.mem_filter, Finset.mem_range, List.mem_toFinset]
    constructor
    · rintro ⟨-, hload⟩
      by_contra hfree
      rw [hs.free index hfree] at hload
      cases hload
    · intro hindex
      obtain ⟨⟨i, w⟩, hmem, rfl⟩ := List.mem_map.mp hindex
      obtain ⟨calls, call, -, -, hoffer⟩ := hs.offered i w hmem
      obtain ⟨handle, -, hk⟩ := offer?_eq_some_iff.mp hoffer
      refine ⟨hs.capacity ▸ (key?_eq_some_iff.mp hk).2, ?_⟩
      rw [show s.record w.index = _ from hw i w hmem, Record.load_published]
      rfl
  rw [hmem, List.toFinset_card_of_nodup hs.once, List.length_map]

/-- What holds of the records after a run of `programs` on a cache of `n` blocks. -/
structure PublishedOnce (n : Nat) (programs : List (List (Call α))) (log : List (Nat × Win α))
    (c : Threads (Shared α) (Thread α)) : Prop where
  /-- The next step, whichever it is, leaves a record's tag, claims it or publishes it. -/
  moves : ∀ d, Step step c d → ∀ index,
    TagMove (c.shared.record index).tag (d.shared.record index).tag
  /-- A record is won once, -/
  once : (log.map fun entry => entry.2.index).Nodup
  /-- by a thread that was offering what it then publishes; -/
  offered : ∀ i w, (i, w) ∈ log → ∃ calls call, programs[i]? = some calls ∧ call ∈ calls ∧
    call.offer? n w.index = some (w.kind, w.block)
  won : ∀ i w, (i, w) ∈ log →
    (c.shared.record w.index).tag = Record.claiming ∨ w.Published c.shared
  /-- until then it is free. -/
  free : ∀ index, (c.shared.record index).tag = 0 ↔ ∀ i w, (i, w) ∈ log → w.index ≠ index
  /-- The calls of a thread are those it was given, -/
  calls : ∀ (i : Nat) t, c.threads[i]? = some t → programs[i]? = some t.calls
  /-- and each ends, however the other threads move. -/
  progress : ∀ (i : Nat) t, c.threads[i]? = some t → ¬ t.Finished → ∀ answer,
    ∃ d t', move step answer i c = some d ∧ d.threads[i]? = some t' ∧ t'.effort < t.effort
  /-- A call that gets a pair gets that of the winner. -/
  returned : ∀ t ∈ c.threads, ∀ call kind block, (call, some (kind, block)) ∈ t.ended →
    ∃ index i, key? n call.handle = some index ∧ (i, ⟨index, kind, block⟩) ∈ log
  /-- From the first such call on, all calls for the index that end get the pair. -/
  later : ∀ t ∈ c.threads, ∀ call kind block index, (call, some (kind, block)) ∈ t.ended →
    key? n call.handle = some index → ∀ d, Reach step c d → ∀ (i : Nat) u v,
      c.threads[i]? = some u → d.threads[i]? = some v → Answered n index kind block u v
  publishes : (∀ t ∈ c.threads, t.Finished) →
    c.shared.publishes = c.shared.published.card
  additions : (∀ t ∈ c.threads, t.Finished) →
    c.shared.publishes + c.shared.lostPublishes + c.shared.overflowSkips =
      (programs.map (List.countP Call.isAdd)).sum

/-- **Whatever the threads do, every record is published at most once.** -/
theorem published_once (h : Logged step win? (start n programs) log c) :
    PublishedOnce n programs log c := by
  obtain ⟨hs, hfits⟩ := sound_and_fits h
  constructor
  case moves =>
    rintro d ⟨answer, i, hmove⟩ index
    obtain ⟨t, s', t', ht, hstep, rfl⟩ := Threads.move_eq_some_iff.mp hmove
    exact (moved_of_step hstep).tagMove (hfits i t ht) index
  case once => exact hs.once
  case offered => exact hs.offered
  case won => exact hs.taken
  case free =>
    intro index
    constructor
    · rintro hz i w hw rfl
      exact hs.tag_ne_zero_of_mem hw hz
    · intro hfree
      rw [hs.free index fun hmem => ?_]
      obtain ⟨⟨i, w⟩, hw, he⟩ := List.mem_map.mp hmem
      exact hfree i w hw he
  case calls => exact fun i t ht => (hfits i t ht).calls
  case progress =>
    intro i t ht hunfinished answer
    obtain ⟨s', t', hstep⟩ := exists_step hunfinished answer c.shared
    refine ⟨_, t', Threads.move_eq_some_iff.mpr ⟨t, s', t', ht, hstep, rfl⟩, ?_,
      (moved_of_step hstep).effort_lt⟩
    rw [List.getElem?_set_self (List.getElem?_eq_some_iff.mp ht).1]
  case returned =>
    intro t ht call kind block he
    obtain ⟨i, hi⟩ := List.mem_iff_getElem?.mp ht
    obtain ⟨index, hk, hrecord⟩ := (hfits i t hi).ended call kind block he
    obtain ⟨j, hw⟩ := hs.exists_mem_of_published hrecord
    exact ⟨index, j, hk, hw⟩
  case later =>
    intro t ht call kind block index he hk d hr
    obtain ⟨i, hi⟩ := List.mem_iff_getElem?.mp ht
    obtain ⟨index', hk', hrecord⟩ := (hfits i t hi).ended call kind block he
    cases hk'.symm.trans hk
    exact (answered_of_reach h hr hrecord).2
  -- once all threads are done, no win is waiting to be counted
  case publishes =>
    intro hfinished
    have hzero : total Thread.uncounted c.threads = 0 := Threads.total_eq_zero fun t ht => by
      rw [Thread.uncounted, (hfinished t ht).2]
    have hall : ∀ i w, (i, w) ∈ log → w.Published c.shared := fun i w hw => by
      obtain ⟨t, ht⟩ := h.exists_thread hw
      rcases (hfits i t ht).wins w hw with hpublished | ⟨call, hholds⟩
      · exact hpublished
      · rw [(hfinished t (List.mem_of_getElem? ht)).2] at hholds
        exact hholds.elim nofun nofun
    rw [← length_eq_card_published hs hall, ← publishes_eq h, hzero, Nat.add_zero]
  case additions =>
    intro hfinished
    have hzero : total Thread.additions c.threads = 0 := Threads.total_eq_zero fun t ht => by
      rw [Thread.additions, (hfinished t ht).1, (hfinished t ht).2]
      rfl
    rw [← additions_eq h, hzero, Nat.add_zero]

end Runs

/-- Two threads, each with an addition under the one key. -/
def twoAdditions : List (List (Call Nat)) :=
  [[.add .first .semaphore 1], [.add ⟨7, by decide⟩ .semaphore 2]]

/-- Both have arrived, the second wins, and the first finds the record taken. -/
theorem published_once_small :
    ∃ c, Logged step win? (start 1 twoAdditions) [(1, ⟨0, .semaphore, 2⟩)] c ∧
      PublishedOnce 1 twoAdditions [(1, ⟨0, .semaphore, 2⟩)] c := by
  have first := Logged.step true 0 (.start : Logged step win? (start 1 twoAdditions) [] _) rfl rfl
  have arrived := Logged.step true 1 first rfl rfl
  have won := Logged.step true 1 arrived rfl rfl
  have lost := Logged.step true 0 won rfl rfl
  exact ⟨_, lost, published_once lost⟩

end SharedSync.Publication
