import Mathlib
import SharedSync.Threads

/-!
# Threads — runs with a log

What a state of interleaved threads owes to the past is told by a log.  A `note` says which steps
are written down, and `Logged` is a run together with what was written, the last entry first, each
under the thread that moved.  The log is no part of the program: any run can be logged.

* `Logged.keeps`: an invariant of the shared state and one of each thread hold throughout a run if
  every step keeps its own thread's and does no harm to another's.
* `Logged.balance`: a quantity to which every step adds what it writes down is, after a run, what
  it was before and what the log adds up to.
-/

namespace SharedSync.Threads

variable {σ τ ε : Type} {p : Program σ τ} {note : Bool → σ → τ → Option ε} {c d e : Threads σ τ}
  {log : List (Nat × ε)}

/-- An entry, if there is one, as it is written down under thread `i`. -/
def under (i : Nat) (entry : Option ε) : List (Nat × ε) := (entry.map (i, ·)).toList

/-- What a step of thread `i` adds to the log. -/
def written (note : Bool → σ → τ → Option ε) (answer : Bool) (i : Nat) (s : σ) (t : τ) :
    List (Nat × ε) :=
  under i (note answer s t)

/-- The steps from `c` to a state, and what was written down on the way. -/
inductive Logged (p : Program σ τ) (note : Bool → σ → τ → Option ε) (c : Threads σ τ) :
    List (Nat × ε) → Threads σ τ → Prop where
  | start : Logged p note c [] c
  | step {log : List (Nat × ε)} {d : Threads σ τ} {t t' : τ} {s' : σ} (answer : Bool) (i : Nat) :
      Logged p note c log d → d.threads[i]? = some t → p answer d.shared t = some (s', t') →
      Logged p note c (written note answer i d.shared t ++ log) ⟨s', d.threads.set i t'⟩

theorem mem_written {answer : Bool} {i j : Nat} {s : σ} {t : τ} {entry : ε} :
    (j, entry) ∈ written note answer i s t ↔ j = i ∧ note answer s t = some entry := by
  rw [written, under, Option.mem_toList, Option.map_eq_some_iff]
  constructor
  · rintro ⟨_, hnote, h⟩
    cases h
    exact ⟨rfl, hnote⟩
  · rintro ⟨rfl, hnote⟩
    exact ⟨entry, hnote, rfl⟩

/-- A thread after a step of thread `i` is the one that moved, or as it was. -/
theorem getElem?_set_cases {threads : List τ} {i j : Nat} {t' u : τ}
    (h : (threads.set i t')[j]? = some u) :
    (j = i ∧ u = t') ∨ (j ≠ i ∧ threads[j]? = some u) := by
  rw [List.getElem?_set] at h
  by_cases hj : i = j
  · rw [if_pos hj] at h
    split at h
    · exact .inl ⟨hj.symm, (Option.some.inj h).symm⟩
    · cases h
  · rw [if_neg hj] at h
    exact .inr ⟨Ne.symm hj, h⟩

namespace Logged

/-- What was reached before is part of the log. -/
theorem of_reach (h : Logged p note c log d) (hr : Reach p d e) :
    ∃ new, Logged p note c (new ++ log) e := by
  induction hr with
  | refl => exact ⟨[], h⟩
  | @tail d' e' _ hs ih =>
      obtain ⟨new, hnew⟩ := ih
      obtain ⟨answer, i, hm⟩ := hs
      obtain ⟨t, s', t', ht, hp, rfl⟩ := move_eq_some_iff.mp hm
      refine ⟨written note answer i d'.shared t ++ new, ?_⟩
      rw [List.append_assoc]
      exact .step answer i hnew ht hp

theorem reach (h : Logged p note c log d) : Reach p c d := by
  induction h with
  | start => exact .refl
  | step answer i _ ht hp ih =>
      exact .tail ih ⟨answer, i, move_eq_some_iff.mpr ⟨_, _, _, ht, hp, rfl⟩⟩

theorem length_threads (h : Logged p note c log d) : d.threads.length = c.threads.length :=
  h.reach.length_threads

/-- What is in the log was written under one of the threads. -/
theorem exists_thread (h : Logged p note c log d) {i : Nat} {entry : ε} (hmem : (i, entry) ∈ log) :
    ∃ t, d.threads[i]? = some t := by
  have hlt : i < c.threads.length := by
    induction h with
    | start => cases hmem
    | step _ _ hlog ht _ ih =>
        rcases List.mem_append.mp hmem with hnew | hold
        · obtain ⟨rfl, -⟩ := mem_written.mp hnew
          exact hlog.length_threads ▸ (List.getElem?_eq_some_iff.mp ht).1
        · exact ih hold
  exact ⟨_, List.getElem?_eq_getElem (h.length_threads ▸ hlt)⟩

end Logged

/-- Any run can be logged. -/
theorem Reach.exists_logged (note : Bool → σ → τ → Option ε) (h : Reach p c d) :
    ∃ log, Logged p note c log d := by
  obtain ⟨log, hlog⟩ := (Logged.start : Logged p note c [] c).of_reach h
  exact ⟨_, hlog⟩

/-! ### Invariants -/

/-- Every step keeps `S` of the shared state and `T i` of the thread `i` that moves, and does no
harm to another thread's. -/
structure Kept (p : Program σ τ) (note : Bool → σ → τ → Option ε)
    (S : List (Nat × ε) → σ → Prop) (T : Nat → List (Nat × ε) → σ → τ → Prop) : Prop where
  own : ∀ {log i answer s t s' t'}, S log s → T i log s t → p answer s t = some (s', t') →
    S (written note answer i s t ++ log) s' ∧ T i (written note answer i s t ++ log) s' t'
  other : ∀ {log i j answer s t s' t' u}, S log s → T i log s t → p answer s t = some (s', t') →
    j ≠ i → T j log s u → T j (written note answer i s t ++ log) s' u

/-- **What every step keeps, a run keeps.** -/
theorem Logged.keeps {S : List (Nat × ε) → σ → Prop} {T : Nat → List (Nat × ε) → σ → τ → Prop}
    (hk : Kept p note S T) (hS : S [] c.shared)
    (hT : ∀ i t, c.threads[i]? = some t → T i [] c.shared t) (h : Logged p note c log d) :
    S log d.shared ∧ ∀ i t, d.threads[i]? = some t → T i log d.shared t := by
  induction h with
  | start => exact ⟨hS, hT⟩
  | step _ _ _ ht hp ih =>
      obtain ⟨hs, hthreads⟩ := ih
      obtain ⟨hs', ht'⟩ := hk.own hs (hthreads _ _ ht) hp
      refine ⟨hs', fun j u hu => ?_⟩
      obtain ⟨rfl, rfl⟩ | ⟨hj, hu⟩ := getElem?_set_cases hu
      · exact ht'
      · exact hk.other hs (hthreads _ _ ht) hp hj (hthreads _ _ hu)

/-! ### Sums -/

/-- What the threads have together. -/
def total (f : τ → Nat) (threads : List τ) : Nat := (threads.map f).sum

/-- A sum over the threads changes by what one thread contributes. -/
theorem total_set {f : τ → Nat} {threads : List τ} {i : Nat} {t : τ} (h : threads[i]? = some t)
    (t' : τ) : total f (threads.set i t') + f t = total f threads + f t' := by
  induction threads generalizing i with
  | nil => cases h
  | cons u threads ih =>
      cases i with
      | zero =>
          obtain rfl : u = t := Option.some.inj h
          simp only [total, List.set_cons_zero, List.map_cons, List.sum_cons]
          omega
      | succ i =>
          have := ih (show threads[i]? = some t from h)
          simp only [total, List.set_cons_succ, List.map_cons, List.sum_cons] at this ⊢
          omega

theorem total_eq_zero {f : τ → Nat} {threads : List τ} (h : ∀ t ∈ threads, f t = 0) :
    total f threads = 0 :=
  List.sum_eq_zero fun n hn => by
    obtain ⟨t, ht, rfl⟩ := List.mem_map.mp hn
    exact h t ht

/-- What the entries of a log add up to. -/
def worth (g : ε → Nat) (log : List (Nat × ε)) : Nat := (log.map fun entry => g entry.2).sum

/-- What a step writes is worth what its entry is. -/
theorem worth_written (g : ε → Nat) (answer : Bool) (i : Nat) (s : σ) (t : τ) :
    worth g (written note answer i s t ++ log) = (note answer s t).elim 0 g + worth g log := by
  unfold worth written under
  cases note answer s t with
  | none => simp
  | some entry => simp

/-- Entries that are worth one each are counted. -/
theorem worth_toNat (q : ε → Bool) (log : List (Nat × ε)) :
    worth (fun entry => (q entry).toNat) log = log.countP fun entry => q entry.2 := by
  induction log with
  | nil => rfl
  | cons entry log ih =>
      rw [worth] at ih
      rw [worth, List.map_cons, List.sum_cons, ih, List.countP_cons, Nat.add_comm]
      cases q entry.2 <;> rfl

/-- If every step adds to a quantity what the entry it writes is worth, so does a run. -/
theorem Logged.balance (w : σ → Nat) (f : τ → Nat) (g : ε → Nat)
    (hstep : ∀ answer s t s' t', p answer s t = some (s', t') →
      w s' + f t' = w s + f t + (note answer s t).elim 0 g)
    (h : Logged p note c log d) :
    w d.shared + total f d.threads = w c.shared + total f c.threads + worth g log := by
  induction h with
  | start => simp [worth]
  | @step log d t t' s' answer i _ ht hp ih =>
      have hone := hstep _ _ _ _ _ hp
      have hset := total_set (f := f) ht t'
      rw [worth_written]
      show w s' + total f (d.threads.set i t') = _
      omega

end SharedSync.Threads
