/-!
# Threads — interleaved steps

A program says what one atomic step of a thread does to the shared state and to the thread.
Where the step depends on the world, such as on whether the kernel grants a mapping, the world's
`answer` is part of the step.  A configuration is the shared state and the threads; in one `Step`
any one thread moves, and `Reach` is any number of steps.

`round` moves every thread once, in order; `settle` repeats rounds.  They are one interleaving
among those of `Reach`.

A `Caller` is a thread that makes calls one after the other.
-/

namespace SharedSync

/-- One step of a thread `τ` on a shared state `σ`; nothing if the thread has finished. -/
abbrev Program (σ τ : Type) := (answer : Bool) → σ → τ → Option (σ × τ)

/-- The state that all threads share, and what each has for itself. -/
structure Threads (σ τ : Type) where
  shared : σ
  threads : List τ

namespace Threads

variable {σ τ : Type}

/-- Thread `i` moves. -/
def move (p : Program σ τ) (answer : Bool) (i : Nat) (c : Threads σ τ) : Option (Threads σ τ) := do
  let thread ← c.threads[i]?
  let (shared, thread) ← p answer c.shared thread
  some ⟨shared, c.threads.set i thread⟩

/-- Some thread moves, and the world gives some answer. -/
def Step (p : Program σ τ) (c d : Threads σ τ) : Prop :=
  ∃ answer i, move p answer i c = some d

/-- Any number of steps. -/
inductive Reach (p : Program σ τ) (c : Threads σ τ) : Threads σ τ → Prop where
  | refl : Reach p c c
  | tail {d e : Threads σ τ} : Reach p c d → Step p d e → Reach p c e

/-- Thread `i` moves if it can. -/
def advance (p : Program σ τ) (c : Threads σ τ) (i : Nat) : Threads σ τ :=
  (move p true i c).getD c

/-- Every thread moves once, the world granting everything. -/
def round (p : Program σ τ) (c : Threads σ τ) : Threads σ τ :=
  (List.range c.threads.length).foldl (advance p) c

/-- Rounds one after the other. -/
def settle (p : Program σ τ) : (rounds : Nat) → Threads σ τ → Threads σ τ
  | 0, c => c
  | n + 1, c => settle p n (round p c)

/-- What a move is: a step of the thread, which takes the place of the one before. -/
theorem move_eq_some_iff {p : Program σ τ} {c d : Threads σ τ} {answer : Bool} {i : Nat} :
    move p answer i c = some d ↔ ∃ t s' t', c.threads[i]? = some t ∧
      p answer c.shared t = some (s', t') ∧ d = ⟨s', c.threads.set i t'⟩ := by
  simp only [move, Option.bind_eq_bind, Option.bind_eq_some_iff, Option.some.injEq]
  constructor
  · rintro ⟨t, ht, ⟨s', t'⟩, hp, rfl⟩
    exact ⟨t, s', t', ht, hp, rfl⟩
  · rintro ⟨t, s', t', ht, hp, rfl⟩
    exact ⟨t, ht, (s', t'), hp, rfl⟩

/-- No thread comes or goes. -/
theorem Reach.length_threads {p : Program σ τ} {c d : Threads σ τ} (h : Reach p c d) :
    d.threads.length = c.threads.length := by
  induction h with
  | refl => rfl
  | tail _ hs ih =>
      obtain ⟨answer, i, hmove⟩ := hs
      obtain ⟨t, s', t', -, -, rfl⟩ := move_eq_some_iff.mp hmove
      rw [List.length_set, ih]

theorem Reach.trans {p : Program σ τ} {c d e : Threads σ τ} (h : Reach p c d)
    (k : Reach p d e) : Reach p c e := by
  induction k with
  | refl => exact h
  | tail _ hs ih => exact .tail ih hs

/-- A thread that moves if it can takes a step or none. -/
theorem reach_advance (p : Program σ τ) (c : Threads σ τ) (i : Nat) :
    Reach p c (advance p c i) := by
  unfold advance
  cases h : move p true i c with
  | none => exact .refl
  | some d => exact .tail .refl ⟨true, i, h⟩

/-- Threads that move in some order take steps. -/
theorem reach_foldl (p : Program σ τ) (order : List Nat) (c : Threads σ τ) :
    Reach p c (order.foldl (advance p) c) := by
  induction order generalizing c with
  | nil => exact .refl
  | cons i order ih => exact (reach_advance p c i).trans (ih _)

/-- What the rounds lead to can be reached. -/
theorem reach_settle (p : Program σ τ) (rounds : Nat) (c : Threads σ τ) :
    Reach p c (settle p rounds c) := by
  induction rounds generalizing c with
  | zero => exact .refl
  | succ n ih => exact (reach_foldl p _ c).trans (ih _)

end Threads

/-- A thread that makes calls `κ`, each in phases `φ`, and gets results `ρ` or nothing. -/
structure Caller (κ φ ρ : Type) where
  todo : List κ
  /-- The call in progress and what it is about to do. -/
  current : Option (κ × φ) := none
  /-- The calls that ended, the last one first, and what they returned. -/
  ended : List (κ × Option ρ) := []

namespace Caller

variable {κ φ ρ : Type}

/-- The call ends. -/
def finish (t : Caller κ φ ρ) (call : κ) (result : Option ρ) : Caller κ φ ρ :=
  { t with current := none, ended := (call, result) :: t.ended }

/-- The call goes on with another phase. -/
def turn (t : Caller κ φ ρ) (call : κ) (phase : φ) : Caller κ φ ρ :=
  { t with current := some (call, phase) }

/-- All calls of the thread, in order. -/
def calls (t : Caller κ φ ρ) : List κ :=
  (t.ended.map Prod.fst).reverse ++ (t.current.map Prod.fst).toList ++ t.todo

/-- Threads that are about to make the calls of their programs. -/
def start (programs : List (List κ)) : List (Caller κ φ ρ) := programs.map fun todo => { todo }

/-- Ending a call loses none. -/
@[simp]
theorem calls_finish {t : Caller κ φ ρ} {call : κ} {phase : φ}
    (h : t.current = some (call, phase)) (result : Option ρ) :
    (t.finish call result).calls = t.calls := by
  simp [calls, finish, h]

/-- Going on with a call loses none. -/
@[simp]
theorem calls_turn {t : Caller κ φ ρ} {call : κ} {phase : φ}
    (h : t.current = some (call, phase)) (next : φ) : (t.turn call next).calls = t.calls := by
  simp [calls, turn, h]

theorem getElem?_start {programs : List (List κ)} {i : Nat} {t : Caller κ φ ρ}
    (h : (start programs)[i]? = some t) : ∃ todo, programs[i]? = some todo ∧ t = { todo } := by
  rw [start, List.getElem?_map, Option.map_eq_some_iff] at h
  exact h.imp fun _ ⟨hp, ht⟩ => ⟨hp, ht.symm⟩

/-- No thread has made a call yet. -/
theorem mem_start {programs : List (List κ)} {t : Caller κ φ ρ} (h : t ∈ start programs) :
    ∃ todo, t = { todo } := by
  obtain ⟨todo, -, rfl⟩ := List.mem_map.mp h
  exact ⟨todo, rfl⟩

end Caller

end SharedSync
