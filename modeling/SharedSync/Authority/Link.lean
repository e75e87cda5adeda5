import SharedSync.Authority.Client
import SharedSync.Authority.Server

/-!
# Authority — both ends of a connection

A `Link` joins a client to a server in front of an authority.  The server answers a request as
soon as it is sent; the client finds the answer when it reads.  If the server fails, it closes the
connection: what was answered can still be read, then the stream ends, and nothing more can be
sent.

`carry n bytes` says in what pieces the bytes of exchange `n` arrive, in either direction.
-/

namespace SharedSync

/-- Both ends in one state: the authority behind the server, and what is on its way back. -/
structure Link (σ : Type) where
  authority : σ
  /-- What the client has yet to read. -/
  inbox : List Arrival := []
  /-- The number of requests answered. -/
  served : Nat := 0
  /-- Why the server closed the connection. -/
  failure : Option SyncError := none

namespace Link

variable {σ : Type}

/-- Each message arrives in one piece. -/
def whole (_ : Nat) (bytes : Bytes) : List Arrival := Source.ofArrivals [.chunk bytes]

/-- The server reads what was sent and answers it. -/
def exchange (a : Authority σ) (carry : Nat → Bytes → List Arrival) (bytes : Bytes)
    (l : Link σ) : Link σ :=
  match Stream.readFrame (carry l.served bytes) with
  | (.error error, _) => { l with failure := some error }
  | (.ok none, _) => l
  | (.ok (some frame), _) =>
      match Server.respond a frame l.authority with
      | ⟨.error error, authority, _⟩ => { l with authority, failure := some error }
      | ⟨.ok answer, authority, _⟩ =>
          { l with authority, inbox := l.inbox ++ carry l.served answer, served := l.served + 1 }

/-- The client's end: what it sends is answered at once, what it reads was answered before. -/
def transport (a : Authority σ) (carry : Nat → Bytes → List Arrival) : Transport (Link σ) where
  send bytes l :=
    match l.failure with
    | some _ => (.error .brokenPipe, l)
    | none => (.ok (), l.exchange a carry bytes)
  receive l :=
    let (result, inbox) := Stream.readFrame l.inbox
    (result, { l with inbox })

/-- What the server reports once the client is gone. -/
def result (l : Link σ) : Except SyncError Nat :=
  match l.failure with
  | some error => .error error
  | none => .ok l.served

end Link

end SharedSync
