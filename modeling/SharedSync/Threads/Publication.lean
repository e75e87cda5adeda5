import SharedSync.HandleCache
import SharedSync.Threads

/-!
# Threads — publication of a record

Threads that add to the cache and look up in it touch a record one word at a time.  An add
exchanges the tag 0 against `Record.claiming`; the one thread that succeeds stores the block,
then the tag of the kind.  A thread whose exchange fails reads the record as a lookup does: first
the tag, and only if it is the tag of a kind, the block.  Every step reads or writes one shared
word; counting is a step of its own.

Finding the block of records is one step here: an add makes it if it is missing, a lookup of a
missing one ends.  How threads agree on a block is `FirstTouch`.
-/

namespace SharedSync.Publication

open HandleCache (Call)

variable {α : Type}

/-- The records word by word, and what was counted. The counters are 64-bit words in the program;
they are the same as long as fewer than `2 ^ 64` calls are made. -/
structure Shared (α : Type) where
  /-- The number of records. -/
  capacity : Nat
  record : Nat → Record α := fun _ => {}
  /-- The blocks of records that exist. -/
  blocks : List Nat := [0]
  publishes : Nat := 0
  lostPublishes : Nat := 0
  overflowSkips : Nat := 0

/-- What a thread is about to do to the record at an index. -/
inductive Phase (α : Type) where
  | claim (kind : ObjectKind) (block : α)
  | storeBlock (kind : ObjectKind) (block : α)
  | storeTag (kind : ObjectKind) (block : α)
  | countPublish (kind : ObjectKind) (block : α)
  | countLost
  | loadTag
  | loadBlock (kind : ObjectKind)

/-- A thread whose call is at the record of an index. -/
abbrev Thread (α : Type) : Type := Caller (Call α) (Nat × Phase α) (ObjectKind × α)

namespace Shared

/-- The index of a handle's record. -/
def index? (s : Shared α) (handle : Handle) : Option Nat :=
  (HandleCache.index? handle).filter (· < s.capacity)

/-- Another content for the record at an index. -/
def setRecord (s : Shared α) (index : Nat) (record : Record α) : Shared α :=
  { s with record := fun i => if i = index then record else s.record i }

/-- The block of an index exists. -/
def touch (s : Shared α) (index : Nat) : Shared α :=
  let block := index / Limits.recordsPerBlock
  { s with blocks := if block ∈ s.blocks then s.blocks else block :: s.blocks }

end Shared

/-- The first step of a call: it finds its record, or ends without one. -/
def begin (s : Shared α) (t : Thread α) (call : Call α) : Shared α × Thread α :=
  match call, s.index? call.handle with
  | .add .., none =>
      ({ s with overflowSkips := s.overflowSkips + 1 }, t.finish call none)
  | .lookup _, none => (s, t.finish call none)
  | .add _ kind block, some index => (s.touch index, t.turn call (index, .claim kind block))
  | .lookup _, some index =>
      if index / Limits.recordsPerBlock ∈ s.blocks then (s, t.turn call (index, .loadTag))
      else (s, t.finish call none)

/-- One step of a call, by its phase. -/
def step : Program (Shared α) (Thread α) := fun _ s t =>
  match t.current with
  | none =>
      match t.todo with
      | [] => none
      | call :: todo => some (begin s { t with todo } call)
  | some (call, index, phase) =>
      let record := s.record index
      match phase with
      | .claim kind block =>
          if record.tag = 0 then
            some (s.setRecord index { record with tag := Record.claiming },
              t.turn call (index, .storeBlock kind block))
          else some (s, t.turn call (index, .countLost))
      | .storeBlock kind block =>
          some (s.setRecord index { record with block := some block },
            t.turn call (index, .storeTag kind block))
      | .storeTag kind block =>
          some (s.setRecord index { record with tag := kind.tag },
            t.turn call (index, .countPublish kind block))
      | .countPublish kind block =>
          some ({ s with publishes := s.publishes + 1 }, t.finish call (some (kind, block)))
      | .countLost =>
          some ({ s with lostPublishes := s.lostPublishes + 1 }, t.turn call (index, .loadTag))
      | .loadTag =>
          match ObjectKind.ofTag? record.tag with
          | none => some (s, t.finish call none)
          | some kind => some (s, t.turn call (index, .loadBlock kind))
      | .loadBlock kind => some (s, t.finish call (record.block.map (kind, ·)))

/-- A cache of `blocks` blocks in which nothing is recorded, and threads that are about to make
their calls in order. -/
def start (blocks : Nat) (programs : List (List (Call α))) : Threads (Shared α) (Thread α) :=
  ⟨{ capacity := blocks * Limits.recordsPerBlock }, Caller.start programs⟩

/-- More rounds than one call takes. -/
def enoughRounds : Nat := 6

/-- Threads that each make one call, side by side, on a cache of `blocks` blocks. -/
def race (blocks : Nat) (calls : List (Call α)) : Threads (Shared α) (Thread α) :=
  Threads.settle step enoughRounds (start blocks (calls.map fun call => [call]))

/-- What a lookup sees of the records as they are. -/
def Shared.get? (s : Shared α) (handle : Handle) : Option (ObjectKind × α) :=
  (s.index? handle).bind fun index => (s.record index).load

end SharedSync.Publication
