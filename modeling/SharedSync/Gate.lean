import SharedSync.Event

/-!
# Gate — decided once

The first call in a process decides whether the fast path is on, and asks the kernel for it if it
must.  Every later call gets that decision.
-/

/-! ### The probe

Whether the kernel can wait on several words at once.  The probe waits on no word for no time:
a kernel that can do it answers at once, and only "not implemented" means that it cannot.  Any
other failure counts as a yes, with a warning. -/

namespace SharedSync.Futex

/-- What a wait on several words comes to. -/
abbrev Answer := Except SyncError WaitOutcome

/-- Waits on no word for no time; `answer` is what the kernel says. -/
def emptyWait (answer : Answer) : Outcome Unit Answer :=
  ⟨answer, (), [.waitingOnSeveral 0 (some ⟨0, 0⟩)]⟩

/-- The answer is one of a kernel that has the operation. -/
def isSupported : Answer → Bool
  | .error (.waitNotImplemented _) => false
  | _ => true

/-- What the probe reports about an answer. -/
def verdict : Answer → Event
  | .ok outcome => .waitOnSeveralAvailable outcome
  | .error (.waitNotImplemented operation) => .waitOnSeveralMissing operation
  | .error error => .waitOnSeveralFailed error

/-- Whether the kernel has the operation, by one wait on no word. -/
def probe (answer : Answer) : Outcome Unit Bool :=
  let waited := emptyWait answer
  ⟨isSupported waited.result, (), waited.events ++ [verdict waited.result]⟩

end SharedSync.Futex

namespace SharedSync

/-! ### The gate

A gate holds the one decision of a process.  The first call decides; every later call gets that
decision, whatever it requests.  The kernel is asked (`asks`) only by the first call, and only if
that call requests the fast path: `decide` takes the answer, `decideByProbe` gets it by the probe
(`Futex.probe`). -/

/-- The decision of a process, once there is one. -/
structure Gate where
  decision : Option GateDecision := none
  /-- How often a decision was computed. -/
  computations : Nat := 0
deriving DecidableEq

namespace Gate

/-- A call now would ask the kernel. -/
def asks (g : Gate) (requested : Bool) : Bool := g.decision.isNone && requested

/-- The decision in force after a call; `answer` is what the kernel says if it is asked. -/
def decide (g : Gate) (requested answer : Bool) : Outcome Gate GateDecision :=
  match g.decision with
  | some decision => ⟨decision, g, []⟩
  | none =>
      let decision : GateDecision :=
        ⟨requested, if g.asks requested then some answer else none⟩
      ⟨decision, ⟨some decision, g.computations + 1⟩, [.gateDecided decision]⟩

/-- The decision in force after a call that probes if it asks; `answer` is what the kernel says to
the probe. -/
def decideByProbe (g : Gate) (requested : Bool) (answer : Futex.Answer) :
    Outcome Gate GateDecision :=
  let probed := Futex.probe answer
  (g.decide requested probed.result).after (if g.asks requested then probed.events else [])

/-- The gate as diagnostics show it. -/
def describe (g : Gate) : String :=
  let shown := match g.decision with
    | none => "None"
    | some decision => "Some(" ++ decision.describe ++ ")"
  "FeatureGate \x7b decision: " ++ shown ++ ", .. \x7d"

end Gate

end SharedSync
