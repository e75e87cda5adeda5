import SharedSync.Proofs.Threads.Logs
import SharedSync.Threads.FirstTouch

/-!
# Threads — what a touch does

A thread that touches chunks and pages moves step by step.  The log of a run holds what the steps
do with resources (`Deed`): each is made, and then published or released.

* `Moved`: what one step can do, with its deed.
* `Request.At`: the cells that a call gets to.  The last of them holds what is asked for
  (`Request.At.eq_target`).
* `stock_change`, `entry_change`: what the steps leave alone.
-/

namespace SharedSync.FirstTouch

/-- What a step does with a resource of a cell. -/
inductive Deed where
  | made (cell : Cell) (resource : Nat)
  | published (cell : Cell) (resource : Nat)
  | released (cell : Cell) (resource : Nat)
deriving DecidableEq, Repr

/-- The deed of the next step of a thread, if that step is one. -/
def deed? (answer : Bool) (s : Shared) (t : Thread) : Option Deed :=
  match t.current with
  | some (_, cell, .make) => if refused answer cell then none else some (.made cell s.fresh)
  | some (_, cell, .publish own) =>
      match s.entry cell with
      | none => some (.published cell own)
      | some _ => none
  | some (_, cell, .release own _) => some (.released cell own)
  | _ => none

/-- What one step can do, and its deed. -/
inductive Moved (shape : Shape) (s : Shared) (t : Thread) : Option Deed → Shared → Thread → Prop
    where
  | beyond {index todo} (hc : t.current = none) (ht : t.todo = .element index :: todo) :
      Moved shape s t none s ({ t with todo }.finish (.element index) none)
  | unbacked {slot todo} (hc : t.current = none) (ht : t.todo = .block slot :: todo) :
      Moved shape s t none (s.change true fun k => { k with failed := k.failed + 1 })
        ({ t with todo }.finish (.block slot) none)
  | arrive {request cell todo} (hc : t.current = none) (ht : t.todo = request :: todo)
      (h : request.first? shape = some cell) :
      Moved shape s t none s ({ t with todo }.turn request (cell, .load))
  | found {request cell resource} (hc : t.current = some (request, cell, .load))
      (h : s.entry cell = some resource) :
      Moved shape s t none s (t.gain shape request cell resource)
  | empty {request cell} (hc : t.current = some (request, cell, .load)) :
      Moved shape s t none s (t.turn request (cell, .make))
  | refuse {request cell} (hc : t.current = some (request, cell, .make)) :
      Moved shape s t none s (t.turn request (cell, .countFailed))
  | make {request cell} (hc : t.current = some (request, cell, .make)) :
      Moved shape s t (some (.made cell s.fresh)) (s.make cell)
        (t.turn request (cell, .publish s.fresh))
  | publish {request cell own} (hc : t.current = some (request, cell, .publish own))
      (h : s.entry cell = none) :
      Moved shape s t (some (.published cell own)) (s.publish cell own)
        (t.turn request (cell, .countPublished own))
  | lose {request cell own winner} (hc : t.current = some (request, cell, .publish own))
      (h : s.entry cell = some winner) :
      Moved shape s t none s (t.turn request (cell, .release own winner))
  | countPublished {request cell own}
      (hc : t.current = some (request, cell, .countPublished own)) :
      Moved shape s t none
        (s.change cell.isPage fun k => { k with published := k.published + 1 })
        (t.gain shape request cell own)
  | release {request cell own winner}
      (hc : t.current = some (request, cell, .release own winner)) :
      Moved shape s t (some (.released cell own)) (s.release cell own)
        (t.turn request (cell, .countReleased winner))
  | countReleased {request cell winner}
      (hc : t.current = some (request, cell, .countReleased winner)) :
      Moved shape s t none
        (s.change cell.isPage fun k => { k with released := k.released + 1 })
        (t.gain shape request cell winner)
  | countFailed {request cell} (hc : t.current = some (request, cell, .countFailed)) :
      Moved shape s t none (s.change cell.isPage fun k => { k with failed := k.failed + 1 })
        (t.finish request none)

variable {shape : Shape} {s s' : Shared} {t t' : Thread} {deed : Option Deed} {answer : Bool}

/-- The first step of a call is one of the ways of moving. -/
theorem moved_begin {request : Request} {todo : List Request} (hc : t.current = none)
    (ht : t.todo = request :: todo) :
    Moved shape s t none (begin shape s { t with todo } request).1
      (begin shape s { t with todo } request).2 := by
  cases hf : request.first? shape with
  | some cell => simpa only [begin, hf] using .arrive hc ht hf
  | none =>
      cases request with
      | element index => simpa only [begin, hf] using .beyond hc ht
      | block slot => simpa only [begin, hf] using .unbacked hc ht

/-- **A step does one of these.** -/
theorem moved_of_step (h : step shape answer s t = some (s', t')) :
    Moved shape s t (deed? answer s t) s' t' := by
  -- the cases of the step itself: no call under way, or a phase of one
  rcases hc : t.current with _ | ⟨request, cell, phase⟩
  · rcases ht : t.todo with _ | ⟨request, todo⟩
    · simp only [step, hc, ht] at h
      cases h
    · simp only [step, hc, ht, Option.some.injEq] at h
      have hm : Moved shape s t none _ _ := moved_begin hc ht
      rw [hc, h] at hm
      simpa only [deed?, hc] using hm
  · cases phase with
    | load =>
        cases he : s.entry cell with
        | some resource =>
            simp only [step, hc, he] at h
            cases h
            simpa only [deed?, hc] using .found hc he
        | none =>
            simp only [step, hc, he] at h
            cases h
            simpa only [deed?, hc] using .empty hc
    | make =>
        by_cases hr : refused answer cell = true
        · simp only [step, hc, if_pos hr] at h
          cases h
          simpa only [deed?, hc, if_pos hr] using .refuse hc
        · simp only [step, hc, if_neg hr] at h
          cases h
          simpa only [deed?, hc, if_neg hr] using .make hc
    | publish own =>
        cases he : s.entry cell with
        | some winner =>
            simp only [step, hc, he] at h
            cases h
            simpa only [deed?, hc, he] using .lose hc he
        | none =>
            simp only [step, hc, he] at h
            cases h
            simpa only [deed?, hc, he] using .publish hc he
    | countPublished own =>
        simp only [step, hc] at h
        cases h
        simpa only [deed?, hc] using .countPublished hc
    | release own winner =>
        simp only [step, hc] at h
        cases h
        simpa only [deed?, hc] using .release hc
    | countReleased winner =>
        simp only [step, hc] at h
        cases h
        simpa only [deed?, hc] using .countReleased hc
    | countFailed =>
        simp only [step, hc] at h
        cases h
        simpa only [deed?, hc] using .countFailed hc

/-! ### Cells -/

/-- The cell is there: a chunk within the directory, or a page whose chunk is published. -/
def Cell.Within (shape : Shape) (s : Shared) : Cell → Prop
  | chunk position => position < shape.chunkCount
  | page number =>
      number / shape.chunkLength < shape.chunkCount ∧
        s.entry (.chunk (number / shape.chunkLength)) ≠ none

/-- The call has got to the cell. -/
def Request.At (shape : Shape) (request : Request) (cell : Cell) : Prop :=
  request.first? shape = some cell ∨
    ∃ slot, request = .block slot ∧ cell = .page (Request.pageOf shape slot)

/-- A call starts at a chunk within the directory. -/
theorem first?_eq_some_iff {request : Request} {cell : Cell} :
    request.first? shape = some cell ↔
      request.index shape / shape.chunkLength < shape.chunkCount ∧
        cell = .chunk (request.index shape / shape.chunkLength) := by
  rw [Request.first?, Option.ite_none_right_eq_some, Option.some.injEq, eq_comm (a := cell)]

/-- The last cell of a call is the one that holds what is asked for. -/
theorem Request.At.eq_target {request : Request} {cell : Cell} (h : request.At shape cell)
    (hn : request.next? shape cell = none) : cell = request.target shape := by
  rcases h with hf | ⟨slot, rfl, rfl⟩
  · obtain ⟨-, rfl⟩ := first?_eq_some_iff.mp hf
    cases request with
    | element index => rfl
    | block slot => cases hn
  · rfl

/-- Another cell follows only on a chunk of the page directory. -/
theorem Request.At.next {request : Request} {cell next : Cell} {resource : Nat}
    (h : request.At shape cell) (hn : request.next? shape cell = some next)
    (he : s.entry cell = some resource) : request.At shape next ∧ next.Within shape s := by
  rcases h with hf | ⟨slot, rfl, rfl⟩
  · obtain ⟨hlt, rfl⟩ := first?_eq_some_iff.mp hf
    cases request with
    | element index => cases hn
    | block slot =>
        cases hn
        refine ⟨.inr ⟨slot, rfl, rfl⟩, hlt, fun hnone => ?_⟩
        cases hnone.symm.trans he
  · cases hn

/-- Having a cell's resource, the call goes on with another cell, or ends with an address. -/
theorem gain_cases (shape : Shape) (t : Thread) (request : Request) (cell : Cell)
    (resource : Nat) :
    (∃ next, request.next? shape cell = some next ∧
      t.gain shape request cell resource = t.turn request (next, .load)) ∨
    (request.next? shape cell = none ∧
      t.gain shape request cell resource =
        t.finish request (some ⟨resource, request.offset shape⟩)) := by
  unfold Thread.gain
  cases request.next? shape cell with
  | some next => exact .inl ⟨next, rfl, rfl⟩
  | none => exact .inr ⟨rfl, rfl⟩

/-! ### Stocks -/

@[simp]
theorem entry_change (s : Shared) (b : Bool) (f : Stock → Stock) :
    (s.change b f).entry = s.entry := by cases b <;> rfl

@[simp]
theorem fresh_change (s : Shared) (b : Bool) (f : Stock → Stock) :
    (s.change b f).fresh = s.fresh := by cases b <;> rfl

theorem stock_change (s : Shared) (b c : Bool) (f : Stock → Stock) :
    (s.change b f).stock c = if c = b then f (s.stock c) else s.stock c := by
  cases b <;> cases c <;> rfl

theorem stock_make (s : Shared) (cell : Cell) (c : Bool) :
    (s.make cell).stock c =
      (s.change cell.isPage fun k => { k with live := s.fresh :: k.live }).stock c := by
  cases c <;> rfl

theorem entry_make (s : Shared) (cell : Cell) : (s.make cell).entry = s.entry := entry_change ..

theorem entry_release (s : Shared) (cell : Cell) (own : Nat) :
    (s.release cell own).entry = s.entry := entry_change ..

theorem stock_publish (s : Shared) (cell : Cell) (own : Nat) (c : Bool) :
    (s.publish cell own).stock c = s.stock c := by cases c <;> rfl

@[simp]
theorem entry_publish_self (s : Shared) (cell : Cell) (own : Nat) :
    (s.publish cell own).entry cell = some own := if_pos rfl

theorem entry_publish_of_ne {cell c : Cell} (h : c ≠ cell) (s : Shared) (own : Nat) :
    (s.publish cell own).entry c = s.entry c := if_neg h

/-- Publishing in an empty cell takes nothing away. -/
theorem entry_publish_mono {cell c : Cell} {own r : Nat} (hnone : s.entry cell = none)
    (he : s.entry c = some r) : (s.publish cell own).entry c = some r := by
  have hne : c ≠ cell := by
    rintro rfl
    cases hnone.symm.trans he
  rw [entry_publish_of_ne hne, he]

end SharedSync.FirstTouch
