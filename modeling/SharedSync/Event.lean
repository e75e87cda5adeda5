import SharedSync.Errors.SyncError
import SharedSync.Futex
import SharedSync.Object.Handle

/-!
# Events — what operations report on the side

An operation may emit events: they say what happened and are no part of its result.  `Event.line`
is an event's line in the log: level, subsystem, message, and the fields in a fixed order.
Addresses are shown as a star.

`Outcome` is what an operation leaves: its result, the state after it, and its events in order.
-/

namespace SharedSync

/-- Something that happened on the side of an operation. -/
inductive Event where
  | openedBackingFile (path : Path)
  | poolReady (path : Path) (pageSize : Nat)
  | slotBeyondDirectory (slot : Slot) (page : Nat)
  | mapFailed (page fileOffset : Nat) (error : SystemError)
  | mappedPage (page : Nat)
  | waitingOnSeveral (count : Nat) (timeout : Option Futex.Timeout)
  | waitOnSeveralAvailable (outcome : Futex.WaitOutcome)
  | waitOnSeveralMissing (operation : Int32)
  | waitOnSeveralFailed (error : SyncError)
  | gateDecided (decision : GateDecision)
  | contextDisabled (decision : GateDecision)
  | contextEnabled (path : Path) (pageSize : Nat)
  | creatingSemaphore (name : String) (initial max : Int32)
  | unknownTypeCreated (type : UInt32) (handle : Handle)
  | contextCreated (handle : Handle) (slot : Slot) (status : Status)
  | cacheFull (handle : Handle) (capacity : Nat)
  | cached (handle : Handle) (kind : ObjectKind)
  | alreadyCached (handle : Handle)
  | createdBackingFile (path : Path)
  | openedObject (name : String) (handle : Handle)
  | createdObject (handle : Handle) (slot : Slot) (kind : ObjectKind)
  | replied (kind : MessageKind) (request : UInt64) (status : Status)
  | malformedCreate (request : UInt64)
  | connectionClosed (served : Nat)
deriving DecidableEq

namespace Event

/-- How much an event matters. -/
inductive Level where
  | trace
  | debug
  | warn

/-- The level at the front of a line. -/
def Level.label : Level → String
  | trace => "TRACE"
  | debug => "DEBUG"
  | warn => "WARN"

/-- The level of each event. -/
def level : Event → Level
  | slotBeyondDirectory .. | mapFailed .. | unknownTypeCreated .. | cacheFull ..
  | malformedCreate .. | waitOnSeveralFailed .. => .warn
  | openedBackingFile .. | poolReady .. | gateDecided .. | contextDisabled ..
  | contextEnabled .. | createdBackingFile .. | connectionClosed .. => .debug
  | mappedPage .. | creatingSemaphore .. | contextCreated .. | cached .. | alreadyCached ..
  | openedObject .. | createdObject .. | replied .. | waitingOnSeveral ..
  | waitOnSeveralAvailable .. | waitOnSeveralMissing .. => .trace

/-- The part of the library that emits the event. -/
def subsystem : Event → String
  | openedBackingFile .. => "fsync_shm::backing"
  | poolReady .. | slotBeyondDirectory .. | mapFailed .. | mappedPage .. => "fsync_shm::pool"
  | waitingOnSeveral .. | waitOnSeveralAvailable .. | waitOnSeveralMissing ..
  | waitOnSeveralFailed .. => "fsync_futex"
  | gateDecided .. => "fsync_core::gate"
  | contextDisabled .. | contextEnabled .. | creatingSemaphore .. | unknownTypeCreated ..
  | contextCreated .. => "fsync_core::context"
  | cacheFull .. | cached .. | alreadyCached .. => "fsync_core::handle_cache"
  | createdBackingFile .. | openedObject .. | createdObject .. | replied ..
  | malformedCreate .. | connectionClosed .. => "fsync_core::authority"

/-- What happened, in words. -/
def message : Event → String
  | openedBackingFile .. => "opened backing file"
  | poolReady .. => "shared page pool ready"
  | slotBeyondDirectory .. => "slot lies beyond the page directory; not mapping"
  | mapFailed .. => "failed to map shared page"
  | mappedPage .. => "mapped shared page"
  | waitingOnSeveral .. => "futex wait multiple"
  | waitOnSeveralAvailable .. => "FUTEX_WAIT_MULTIPLE available"
  | waitOnSeveralMissing .. => "FUTEX_WAIT_MULTIPLE not implemented"
  | waitOnSeveralFailed .. =>
      "empty FUTEX_WAIT_MULTIPLE failed without ENOSYS; multi-word waits may not work"
  | gateDecided .. => "fsync feature gate decided"
  | contextDisabled .. => "fsync disabled"
  | contextEnabled .. => "fsync enabled"
  | creatingSemaphore .. => "create semaphore"
  | unknownTypeCreated .. => "authority created an object of unknown type; not caching"
  | contextCreated .. => "created fsync object"
  | cacheFull .. => "too many allocated handles, not caching"
  | cached .. => "cached object"
  | alreadyCached .. => "handle already cached"
  | createdBackingFile .. => "created fsync backing file"
  | openedObject .. => "opened existing object"
  | createdObject .. => "created object"
  | replied .. => "authority replied"
  | malformedCreate .. => "malformed create request"
  | connectionClosed .. => "authority connection closed"

/-- Addresses differ from run to run. -/
def address : String := "*"

/-- The particulars of an event, by name. -/
def fields : Event → List (String × String)
  | openedBackingFile path | createdBackingFile path => [("path", path.display)]
  | poolReady path pageSize | contextEnabled path pageSize =>
      [("path", path.display), ("page_size", toString pageSize)]
  | slotBeyondDirectory slot page => [("slot", toString slot), ("page", toString page)]
  | mapFailed page fileOffset error =>
      [("page", toString page), ("file_offset", toString fileOffset), ("error", error.text)]
  | mappedPage page => [("page", toString page), ("addr", address)]
  | waitingOnSeveral count timeout =>
      ("count", toString count) :: timeout.toList.map fun t => ("timeout_ns", toString t.total)
  | waitOnSeveralAvailable outcome => [("outcome", outcome.describe)]
  | waitOnSeveralMissing operation => [("op", toString operation)]
  | waitOnSeveralFailed error => [("error", error.message)]
  | gateDecided decision =>
      [("requested", toString decision.requested), ("futex_supported", decision.supportText),
       ("status", decision.status)]
  | contextDisabled decision => [("decision", decision.status)]
  | creatingSemaphore name initial max =>
      [("name", name), ("initial", toString initial), ("max", toString max)]
  | unknownTypeCreated type handle =>
      [("object_type", toString type), ("handle", toString handle)]
  | contextCreated handle slot status =>
      [("handle", toString handle), ("slot", toString slot), ("status", toString status)]
  | cacheFull handle capacity =>
      [("handle", toString handle), ("capacity", toString capacity)]
  | cached handle kind =>
      [("handle", toString handle), ("kind", toString kind), ("shm", address)]
  | alreadyCached handle => [("handle", toString handle)]
  | openedObject name handle => [("name", name), ("handle", toString handle)]
  | createdObject handle slot kind =>
      [("handle", toString handle), ("slot", toString slot), ("kind", toString kind)]
  | replied kind request status =>
      [("kind", toString kind), ("request_id", toString request), ("status", toString status)]
  | malformedCreate request => [("request_id", toString request)]
  | connectionClosed served => [("served", toString served)]

/-- The event as the log shows it. -/
def line (e : Event) : String :=
  e.level.label ++ " " ++ e.subsystem ++ ": " ++ e.message ++ ";" ++
    String.join (e.fields.map fun (name, value) => " " ++ name ++ "=" ++ value)

end Event

/-- What an operation on a state `σ` leaves. -/
structure Outcome (σ α : Type) where
  result : α
  state : σ
  events : List Event := []

namespace Outcome

/-- The same outcome with events that came before it. -/
def after (o : Outcome σ α) (earlier : List Event) : Outcome σ α :=
  { o with events := earlier ++ o.events }

end Outcome

end SharedSync
