import SharedSync.Gate
import SharedSync.Threads

/-!
# Threads — one decision

Threads that ask the gate side by side.  A thread that finds no decision computes it while the
others wait, so asking is one step.  The world's answer is the kernel's, and may be another at
every step.

* `settled_of_reach`: in every interleaving the decision is computed once at most, the kernel is
  asked once at most, and every thread that asked got the one decision.
* `decision_of_reach`: no step changes the decision.
* `agree_race`: threads that all had their turn agree.
-/

namespace SharedSync.Decision

open Threads (Reach advance)

/-- What the threads share. -/
structure Shared where
  gate : Gate := {}
  /-- How often the kernel was asked. -/
  checks : Nat := 0

/-- A thread that asks once, and what it was told. -/
structure Thread where
  requested : Bool
  decision : Option GateDecision := none

/-- The thread asks, unless it has asked before. -/
def step : Program Shared Thread := fun answer s t =>
  match t.decision with
  | some _ => none
  | none =>
      let decided := s.gate.decide t.requested answer
      some ({ gate := decided.state, checks := s.checks + (s.gate.asks t.requested).toNat },
        { t with decision := some decided.result })

/-- A new gate, and threads that are about to ask. -/
def start (requests : List Bool) : Threads Shared Thread :=
  ⟨{}, requests.map fun requested => { requested }⟩

/-- `count` threads that each request the fast path once, side by side. -/
def race (count : Nat) (answer : Bool) : Threads Shared Thread :=
  Threads.settle (fun _ => step answer) 1 (start (List.replicate count true))

/-- All threads got the same decision. -/
def agree (c : Threads Shared Thread) : Bool :=
  c.threads.all fun t => t.decision == c.shared.gate.decision

/-! ### One step -/

/-- A decision, if there is one, was computed once by a thread that asked for it; only that thread
can have asked the kernel; and whoever was told a decision was told this one. -/
structure Settled (c : Threads Shared Thread) : Prop where
  undecided : c.shared.gate.decision = none →
    c.shared.gate.computations = 0 ∧ c.shared.checks = 0
  decided : ∀ d, c.shared.gate.decision = some d →
    c.shared.gate.computations = 1 ∧ c.shared.checks = d.requested.toNat ∧
      d.supported.isSome = d.requested
  maker : ∀ d, c.shared.gate.decision = some d →
    ∃ (i : Nat) (t : Thread), c.threads[i]? = some t ∧ t.requested = d.requested ∧
      t.decision = some d
  told : ∀ t ∈ c.threads, ∀ d, t.decision = some d → c.shared.gate.decision = some d

variable {c d : Threads Shared Thread} {requests : List Bool}

/-- What a step does: a thread that was not told a decision is told the one in force, or makes its
own. -/
theorem step_cases {answer : Bool} {i : Nat} (h : Threads.move step answer i c = some d) :
    ∃ t, c.threads[i]? = some t ∧ t.decision = none ∧
      ((∃ found, c.shared.gate.decision = some found ∧
          d = ⟨c.shared, c.threads.set i { t with decision := some found }⟩) ∨
        (c.shared.gate.decision = none ∧ ∃ made : GateDecision,
          made = ⟨t.requested, if t.requested then some answer else none⟩ ∧
            d = ⟨⟨⟨some made, c.shared.gate.computations + 1⟩,
                c.shared.checks + t.requested.toNat⟩,
              c.threads.set i { t with decision := some made }⟩)) := by
  obtain ⟨t, s, t', ht, hstep, rfl⟩ := Threads.move_eq_some_iff.mp h
  refine ⟨t, ht, ?_⟩
  unfold step at hstep
  cases hdecision : t.decision with
  | some told => rw [hdecision] at hstep; cases hstep
  | none =>
      rw [hdecision] at hstep
      cases hgate : c.shared.gate.decision with
      | some found =>
          simp only [Gate.decide, Gate.asks, hgate] at hstep
          cases hstep
          exact ⟨rfl, .inl ⟨found, rfl, rfl⟩⟩
      | none =>
          simp only [Gate.decide, Gate.asks, hgate] at hstep
          cases hstep
          exact ⟨rfl, .inr ⟨rfl, _, rfl, rfl⟩⟩

/-- A step leaves a decision as it is. -/
theorem decision_of_step {found : GateDecision} (h : Threads.Step step c d)
    (hc : c.shared.gate.decision = some found) : d.shared.gate.decision = some found := by
  obtain ⟨answer, i, hmove⟩ := h
  obtain ⟨t, -, -, ⟨_, -, rfl⟩ | ⟨hnone, -⟩⟩ := step_cases hmove
  · exact hc
  · cases hnone.symm.trans hc

/-- **Every step keeps the threads settled.** -/
theorem Settled.step (hc : Settled c) (h : Threads.Step step c d) : Settled d := by
  obtain ⟨answer, i, hmove⟩ := h
  obtain ⟨t, ht, hasked, ⟨found, hfound, rfl⟩ | ⟨hnone, made, hmade, rfl⟩⟩ := step_cases hmove
  · refine ⟨hc.undecided, hc.decided, ?_, ?_⟩
    · intro e he
      obtain ⟨j, u, hu, hrequested, hdecision⟩ := hc.maker e he
      -- the maker was told already, so it is not the one that moved
      have hne : i ≠ j := by
        rintro rfl
        obtain rfl : t = u := Option.some.inj (ht.symm.trans hu)
        cases hasked.symm.trans hdecision
      exact ⟨j, u, by rw [List.getElem?_set_ne hne]; exact hu, hrequested, hdecision⟩
    · intro u hu e he
      rcases List.mem_or_eq_of_mem_set hu with hu | rfl
      · exact hc.told u hu e he
      · exact hfound.trans he
  · obtain ⟨hcomputations, hchecks⟩ := hc.undecided hnone
    have hlt : i < c.threads.length := (List.getElem?_eq_some_iff.mp ht).1
    refine ⟨nofun, ?_, ?_, ?_⟩
    · rintro e he
      cases he
      refine ⟨by rw [hcomputations], ?_, ?_⟩
      · rw [hchecks, Nat.zero_add, hmade]
      · rw [hmade]
        cases t.requested <;> rfl
    · rintro e he
      cases he
      exact ⟨i, _, List.getElem?_set_self hlt, by rw [hmade], rfl⟩
    · intro u hu e he
      rcases List.mem_or_eq_of_mem_set hu with hu | rfl
      · cases hnone.symm.trans (hc.told u hu e he)
      · exact he

/-! ### Runs -/

theorem settled_start (requests : List Bool) : Settled (start requests) := by
  refine ⟨fun _ => ⟨rfl, rfl⟩, nofun, nofun, ?_⟩
  intro t ht d hd
  obtain ⟨requested, -, rfl⟩ := List.mem_map.mp ht
  cases hd

/-- **In every interleaving, all threads are told one decision.**  It is computed once at most, and
the kernel is asked once at most, by the thread that makes it and only if that one requests the
fast path. -/
theorem settled_of_reach (h : Reach step (start requests) c) : Settled c := by
  induction h with
  | refl => exact settled_start requests
  | tail _ hstep ih => exact ih.step hstep

/-- The decision stays, whatever comes after it. -/
theorem decision_of_reach {found : GateDecision} (h : Reach step c d)
    (hc : c.shared.gate.decision = some found) : d.shared.gate.decision = some found := by
  induction h with
  | refl => exact hc
  | tail _ hstep ih => exact decision_of_step hstep ih

/-! ### A round -/

/-- The program of a world that always gives the same answer. -/
abbrev steady (answer : Bool) : Program Shared Thread := fun _ => step answer

theorem reach_of_steady {answer : Bool} (h : Reach (steady answer) c d) : Reach step c d := by
  induction h with
  | refl => exact .refl
  | tail _ hstep ih =>
      obtain ⟨_, i, hmove⟩ := hstep
      exact .tail ih ⟨answer, i, hmove⟩

/-- A thread that has its turn was told before, or is told now while the others stay. -/
theorem threads_advance (answer : Bool) {i : Nat} {t : Thread} (ht : c.threads[i]? = some t) :
    (∃ found, t.decision = some found ∧ advance (steady answer) c i = c) ∨
      t.decision = none ∧ ∃ found, (advance (steady answer) c i).threads =
        c.threads.set i { t with decision := some found } := by
  cases hdecision : t.decision with
  | some found =>
      refine .inl ⟨found, rfl, ?_⟩
      simp [advance, Threads.move, step, ht, hdecision]
  | none =>
      refine .inr ⟨rfl, (c.shared.gate.decide t.requested answer).result, ?_⟩
      simp [advance, Threads.move, step, ht, hdecision]

/-- Thread `i` was told a decision. -/
def Done (i : Nat) (c : Threads Shared Thread) : Prop :=
  ∃ t found, c.threads[i]? = some t ∧ t.decision = some found

theorem done_advance (answer : Bool) {i : Nat} (hi : i < c.threads.length) :
    Done i (advance (steady answer) c i) := by
  have ht := List.getElem?_eq_getElem hi
  obtain ⟨found, hfound, heq⟩ | ⟨-, found, hset⟩ := threads_advance answer ht
  · exact ⟨_, found, by rw [heq, ht], hfound⟩
  · exact ⟨_, found, by rw [hset, List.getElem?_set_self hi], rfl⟩

/-- What a thread was told, it was told for good. -/
theorem Done.advance {answer : Bool} {i j : Nat} (h : Done i c) (hj : j < c.threads.length) :
    Done i (advance (steady answer) c j) := by
  obtain ⟨t, found, ht, hfound⟩ := h
  obtain ⟨_, -, heq⟩ | ⟨hasked, _, hset⟩ := threads_advance answer (List.getElem?_eq_getElem hj)
  · exact ⟨t, found, by rw [heq, ht], hfound⟩
  · have hne : j ≠ i := by
      rintro rfl
      obtain rfl : c.threads[j] = t :=
        Option.some.inj ((List.getElem?_eq_getElem hj).symm.trans ht)
      cases hasked.symm.trans hfound
    exact ⟨t, found, by rw [hset, List.getElem?_set_ne hne, ht], hfound⟩

/-- Every thread that is in the order has its turn. -/
theorem done_foldl (answer : Bool) (order : List Nat) {i : Nat}
    (horder : ∀ j ∈ order, j < c.threads.length) (h : i ∈ order ∨ Done i c) :
    Done i (order.foldl (advance (steady answer)) c) := by
  induction order generalizing c with
  | nil => exact h.resolve_left List.not_mem_nil
  | cons j order ih =>
      have hj := horder j (List.mem_cons_self ..)
      refine ih (fun k hk => ?_) ?_
      · rw [(Threads.reach_advance _ c j).length_threads]
        exact horder k (List.mem_cons_of_mem _ hk)
      · rcases h with h | h
        · rcases List.mem_cons.mp h with rfl | h
          · exact .inr (done_advance answer hj)
          · exact .inl h
        · exact .inr (h.advance hj)

/-- **Threads that all had their turn agree.** -/
theorem agree_race (count : Nat) (answer : Bool) : agree (race count answer) = true := by
  have hreach : Reach step (start (List.replicate count true)) (race count answer) :=
    reach_of_steady (Threads.reach_settle _ 1 _)
  refine List.all_eq_true.mpr fun t ht => beq_iff_eq.mpr ?_
  obtain ⟨i, hi⟩ := List.mem_iff_getElem?.mp ht
  have hlength : i < (start (List.replicate count true)).threads.length :=
    hreach.length_threads ▸ (List.getElem?_eq_some_iff.mp hi).1
  obtain ⟨u, found, hu, hfound⟩ := done_foldl answer (c := start (List.replicate count true)) _
    (fun j hj => List.mem_range.mp hj) (.inl (List.mem_range.mpr hlength))
  obtain rfl : t = u := Option.some.inj (hi.symm.trans hu)
  rw [hfound, (settled_of_reach hreach).told t ht found hfound]

end SharedSync.Decision
