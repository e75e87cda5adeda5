import SharedSync.Authority
import SharedSync.Stream

/-!
# Authority — reached over a stream

A client sends each request in one frame and waits for the reply frame with the same number.  The
numbers count from 1.  A request that cannot be encoded uses no number; from then on the number
is used, whatever happens.

`Transport` is what the client needs of a connection: to send bytes, and to receive a frame.
-/

namespace SharedSync

/-- What a client needs of a connection in state `τ`. -/
structure Transport (τ : Type) where
  send : Bytes → τ → Except SystemError Unit × τ
  receive : τ → Except SyncError (Option Frame) × τ

/-- A stream carries frames as it is. -/
def Stream.transport : Transport Stream where
  send bytes stream :=
    let (result, sink) := stream.sink.send bytes
    (result, { stream with sink })
  receive stream :=
    let (result, incoming) := Stream.readFrame stream.incoming
    (result, { stream with incoming })

/-- A connection, and the number that the next request will have. -/
structure Client (τ : Type) where
  connection : τ
  /-- The number of the next request. -/
  next : UInt64 := 1

namespace Client

variable {τ : Type}

/-- The reply in the frame that answers request `awaited`. -/
def accept (awaited : UInt64) : Option Frame → Except SyncError Reply
  | none => .error (.protocol .closed)
  | some frame =>
      if frame.kind ≠ .reply then .error (.protocol (.unexpectedKind frame.kind))
      else if frame.request ≠ awaited then
        .error (.protocol (.wrongRequest frame.request awaited))
      else
        match Reply.decode? frame.payload with
        | none => .error (.protocol .malformedReply)
        | some reply => .ok reply

/-- Waits for the reply to a request that was sent. -/
def await (t : Transport τ) (kind : MessageKind) (request : UInt64) (c : Client τ) :
    Outcome (Client τ) (Except SyncError Reply) :=
  let (received, connection) := t.receive c.connection
  let c := { c with connection }
  match received with
  | .error error => ⟨.error error, c, []⟩
  | .ok frame =>
      match accept request frame with
      | .error error => ⟨.error error, c, []⟩
      | .ok reply => ⟨.ok reply, c, [.replied kind request reply.status]⟩

/-- Sends a payload and waits for the reply. -/
def call (t : Transport τ) (kind : MessageKind) (payload : Bytes) (c : Client τ) :
    Outcome (Client τ) (Except SyncError Reply) :=
  let request := c.next
  let c := { c with next := request + 1 }
  match Frame.encode { kind, request, payload } with
  | .error error => ⟨.error (.ofFrameError error), c, []⟩
  | .ok bytes =>
      let (sent, connection) := t.send bytes c.connection
      let c := { c with connection }
      match sent with
      | .error error => ⟨.error (.system error), c, []⟩
      | .ok () => await t kind request c

/-- The authority at the other end of the connection. -/
def authority (t : Transport τ) : Authority (Client τ) where
  create request c :=
    match request.encode with
    | .error fault => ⟨.error (.invalidAttributes fault), c, []⟩
    | .ok payload => call t .createObject payload c
  query handle c := call t .queryObject (Query.encode handle) c

/-- The client as diagnostics show it. -/
def describe (c : Client τ) : String :=
  "FramedAuthority \x7b next_request_id: " ++ toString c.next ++ ", .. \x7d"

end Client

end SharedSync
