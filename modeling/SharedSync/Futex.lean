import SharedSync.Words

/-!
# Futex — waiting on a word

A wait compares the word with an expected value and goes to sleep if they agree.  A sleeper ends
by a wake or by its timeout; without a timeout only a wake ends it.  A wake with a count of zero
still wakes one sleeper.  A signal ends a wait as well (`interrupted`); `wait` says how one ends
without signals.
-/

namespace SharedSync.Futex

/-- How a wait ends. -/
inductive WaitOutcome where
  | woken (index : Nat)
  | valueMismatch
  | timedOut
  /-- A signal came. -/
  | interrupted
deriving DecidableEq, Repr

/-- The outcome as the log shows it. -/
def WaitOutcome.describe : WaitOutcome → String
  | woken index => "Woken \x7b index: " ++ toString index ++ " \x7d"
  | valueMismatch => "ValueMismatch"
  | timedOut => "TimedOut"
  | interrupted => "Interrupted"

/-- How long a wait may last. -/
structure Timeout where
  seconds : UInt64
  nanoseconds : UInt32
deriving DecidableEq, Repr

/-- The whole timeout in nanoseconds. -/
def Timeout.total (t : Timeout) : Nat := t.seconds.toNat * 1000000000 + t.nanoseconds.toNat

/-- A word to wait on, and the value it is expected to hold. -/
structure WaitBlock where
  word : Nat
  expected : UInt32
deriving DecidableEq, Repr

/-- How a wait ends if no one wakes it; without a timeout it need not end. -/
def wait (word expected : UInt32) (timeout : Option Timeout) : Option WaitOutcome :=
  if word ≠ expected then some .valueMismatch else timeout.map fun _ => .timedOut

/-- The most sleepers a wake can end. -/
def maxWake : Nat := 0x7FFFFFFF

/-- How many of the sleepers a wake ends. -/
def wake (count sleeping : Nat) : Nat := min sleeping (max 1 (min count maxWake))

/-- How many sleepers each wake ends until none is left. -/
def wakeAll (count sleeping : Nat) : List Nat :=
  if sleeping = 0 then []
  else wake count sleeping :: wakeAll count (sleeping - wake count sleeping)
termination_by sleeping
decreasing_by
  simp only [wake, maxWake]
  omega

/-- What the sleepers on one word report once wakes have ended them all. -/
def handOff (count sleeping : Nat) : List WaitOutcome :=
  (wakeAll count sleeping).flatMap fun woken => List.replicate woken (.woken 0)

end SharedSync.Futex
