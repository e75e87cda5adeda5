import SharedSync.Errors
import SharedSync.Files
import SharedSync.Config
import SharedSync.Object.Attributes
import SharedSync.Object.Status
import SharedSync.Wire.Frame

/-!
# Errors — why a call fails

Three tiers: misconfiguration, which is fatal to the process (`isFatal`); the authority's refusal,
handed back with its status (`status?`); and everything else.  A page that could not be mapped or
a handle that could not be cached is no error: it is an event (`Event`), and the call goes on.
-/

namespace SharedSync

/-- How the process and the authority disagree. -/
inductive Mismatch where
  | authorityOnly (decision : GateDecision)
  | processOnly
  | described (detail : String)
deriving DecidableEq, Repr

/-- The text that reports the disagreement. -/
def Mismatch.detail : Mismatch → String
  | authorityOnly decision =>
      "authority is running with fsync but this process is not (" ++ decision.status ++
        "); enable fsync or restart the authority"
  | processOnly => "fsync is enabled but the authority answered " ++ toString Status.notImplemented
  | described detail => detail

/-- What the other end of the connection did against the protocol. -/
inductive ProtocolFault where
  | badFrame (error : FrameError)
  | closed
  | unexpectedKind (kind : MessageKind)
  | wrongRequest (answered awaited : UInt64)
  | malformedReply
  | replyFromClient
  | noHandle (status : Status)
  | unknownType (type : UInt32)
  | described (detail : String)
deriving DecidableEq, Repr

/-- The text that reports the fault. -/
def ProtocolFault.detail : ProtocolFault → String
  | badFrame error => error.message
  | closed => "authority closed the connection"
  | unexpectedKind kind =>
      "expected " ++ toString MessageKind.reply ++ " frame, got " ++ toString kind
  | wrongRequest answered awaited =>
      "reply for request " ++ toString answered ++ " while waiting for " ++ toString awaited
  | malformedReply => "malformed reply payload"
  | replyFromClient => "client sent a reply frame"
  | noHandle status => toString status ++ " without a handle"
  | unknownType type => "unknown object type " ++ toString type
  | described detail => detail

/-- Why a call of the library fails. -/
inductive SyncError where
  /-- Only the authority makes the backing file, so its absence means that an authority runs
  without taking part. -/
  | backingFileMissing (path : Path)
  | configMismatch (cause : Mismatch)
  | authority (status : Status)
  | protocol (fault : ProtocolFault)
  | invalidAttributes (fault : AttributesFault)
  | waitNotImplemented (operation : Int32)
  | disabled
  | system (error : SystemError)
deriving DecidableEq

namespace SyncError

/-- The text that reports the error. -/
def message : SyncError → String
  | backingFileMissing path =>
      "fsync shared memory file '" ++ path.display ++
        "' is missing; make sure no stale authority is running without fsync"
  | configMismatch cause => "fsync configuration mismatch: " ++ cause.detail
  | authority status => "authority returned " ++ toString status
  | protocol fault => "authority protocol error: " ++ fault.detail
  | invalidAttributes fault => "invalid object attributes: " ++ fault.detail
  | waitNotImplemented operation =>
      "futex operation " ++ toString operation ++ " is not implemented by this kernel"
  | disabled => "fsync is disabled in this process"
  | system error => "I/O error: " ++ error.text

/-- The process cannot recover from this. -/
def isFatal : SyncError → Bool
  | backingFileMissing _ | configMismatch _ => true
  | _ => false

/-- The status that the authority refused with. -/
def status? : SyncError → Option Status
  | authority status => some status
  | _ => none

/-- A frame that does not decode or encode is a fault of the protocol. -/
def ofFrameError (error : FrameError) : SyncError := protocol (.badFrame error)

/-- The state of the slot cannot be shown: its page could not be mapped. -/
def cannotMap (slot : String) : SyncError :=
  system (.described .other ("cannot map shared state for slot " ++ slot))

end SyncError

end SharedSync
