import Mathlib
import SharedSync.Proofs.Authority.Exchange
import SharedSync.Proofs.Object.Indices

/-!
# Authority — a whole session over a stream

In a `Session` a client and a server have the two ends of a connection: each reads what the other
writes, in any pieces.  The client makes its calls one after the other.

* `exists_transcript`: what the two ends write is fixed by the requests and the authority.
* `session_transparent`: so there are sessions, and in each the client gets, call by call, what the
  authority would have answered to it directly; the authority ends in the same state; and the
  server counts the calls.
-/

namespace SharedSync

open Source (Delivers)

/-- The replies to a series of requests, made one after the other, and the state they leave. -/
def Authority.replies {σ : Type} (a : Authority σ) :
    List Request → σ → List (Except SyncError Reply) × σ
  | [], s => ([], s)
  | request :: rest, s =>
      let first := a.answer request s
      let others := a.replies rest first.state
      (first.result :: others.1, others.2)

theorem Authority.replies_cons {σ : Type} (a : Authority σ) (request : Request)
    (rest : List Request) (s : σ) : a.replies (request :: rest) s =
      ((a.answer request s).result :: (a.replies rest (a.answer request s).state).1,
        (a.replies rest (a.answer request s).state).2) := rfl

namespace Client

/-- The client at one end of a new connection. -/
def ofStream (near : Stream) : Client Stream := { connection := near }

theorem output_replies (requests : List Request) (c : Client Stream) :
    ∃ more, ((authority Stream.transport).replies requests c).2.output = c.output ++ more := by
  induction requests generalizing c with
  | nil => exact ⟨[], (List.append_nil _).symm⟩
  | cons request rest ih =>
      obtain ⟨first, hfirst⟩ := output_answer request c
      obtain ⟨others, hothers⟩ := ih ((authority Stream.transport).answer request c).state
      refine ⟨first ++ others, ?_⟩
      rw [Authority.replies, hothers, hfirst, List.append_assoc]

end Client

/-- Each end of the connection reads what the other one writes; nothing fails on the way. -/
structure Session (requests : List Request) (m : MemoryAuthority) (near far : Stream) : Prop where
  nearAccepts : near.sink.Accepts
  farAccepts : far.sink.Accepts
  nearFresh : near.sink.output = []
  farFresh : far.sink.output = []
  toServer : Delivers far.incoming
    ((Client.authority Stream.transport).replies requests (Client.ofStream near)).2.output
  toClient : Delivers near.incoming
    (Server.serve MemoryAuthority.authority far m).state.1.sink.output

/-- Two ends in the middle of a session agree on the rest of it. -/
theorem replies_eq_of_delivers {requests : List Request}
    (hfits : ∀ request ∈ requests, request.Fits)
    {c : Client Stream} {far : Stream} {m : MemoryAuthority} {served : Nat} {past : List Event}
    {asked answered : Bytes} (hc : c.connection.sink.Accepts) (hf : far.sink.Accepts)
    (hasked : ((Client.authority Stream.transport).replies requests c).2.output =
      c.output ++ asked)
    (hanswered : (Server.serveFrom MemoryAuthority.authority served past far m).state.1.sink.output
      = far.sink.output ++ answered)
    (toServer : Delivers far.incoming asked) (toClient : Delivers c.connection.incoming answered) :
    ((Client.authority Stream.transport).replies requests c).1 =
        (MemoryAuthority.authority.replies requests m).1 ∧
      (Server.serveFrom MemoryAuthority.authority served past far m).state.2 =
        (MemoryAuthority.authority.replies requests m).2 ∧
      (Server.serveFrom MemoryAuthority.authority served past far m).result =
        .ok (served + requests.length) := by
  induction requests generalizing c far m served past asked answered with
  | nil =>
      obtain rfl : asked = [] := by
        have h : c.output ++ [] = c.output ++ asked := (List.append_nil _).trans hasked
        exact (List.append_cancel_left h).symm
      obtain ⟨hresult, hstate⟩ :=
        Server.serveFrom_end toServer MemoryAuthority.authority served past m
      exact ⟨rfl, by rw [hstate]; rfl, hresult⟩
  | cons request rest ih =>
      obtain ⟨q, a, reply, m', exchange⟩ :=
        exists_exchange (hfits request (List.mem_cons_self ..)) c.next m
      obtain ⟨sink, kind, haccepts, houtput, hsent⟩ := exchange.answer_eq rfl hc
      generalize hwaiting : (⟨⟨c.connection.incoming, sink⟩, c.next + 1⟩ : Client Stream) = waiting
        at hsent
      have hsink : waiting.connection.sink = sink := by rw [← hwaiting]
      have hincoming : waiting.connection.incoming = c.connection.incoming := by rw [← hwaiting]
      -- whatever the client will read, it wrote the request first
      obtain ⟨later, hlater⟩ := Client.output_replies rest
        (Client.await Stream.transport kind c.next waiting).state
      have hall : asked = q ++ later := by
        rw [Authority.replies_cons, hsent, hlater, Client.output_await, Client.output, hsink,
          houtput, List.append_assoc] at hasked
        exact (List.append_cancel_left hasked).symm
      rw [hall] at toServer
      obtain ⟨far', past', toServer', hf', hfar', hserve⟩ :=
        exchange.serveFrom_eq toServer hf served past
      -- so the reply is the first that the client reads
      obtain ⟨more, hmore⟩ := Server.output_serveFrom MemoryAuthority.authority (served + 1) past'
        far' m'
      have hback : answered = a ++ more := by
        rw [hserve, hmore, hfar', List.append_assoc] at hanswered
        exact (List.append_cancel_left hanswered).symm
      rw [hback, ← hincoming] at toClient
      obtain ⟨left, events, toClient', hawait⟩ := exchange.await_eq toClient kind
      rw [hawait] at hlater
      obtain ⟨hreplies, hstate, hresult⟩ := ih
        (fun r hr => hfits r (List.mem_cons_of_mem _ hr)) (hsink ▸ haccepts) hf' hlater hmore
        toServer' toClient'
      obtain ⟨hreply, hm'⟩ := exchange.answer
      rw [Authority.replies_cons, Authority.replies_cons, hsent, hawait, hreply, hm', hserve]
      refine ⟨congrArg _ hreplies, hstate, hresult.trans ?_⟩
      rw [List.length_cons, Nat.add_right_comm, Nat.add_assoc]

/-- What the two ends write, whoever delivers it. -/
theorem exists_transcript {requests : List Request} (hfits : ∀ request ∈ requests, request.Fits)
    (m : MemoryAuthority) (n : UInt64) : ∃ asked answered,
    (∀ c : Client Stream, c.next = n → c.connection.sink.Accepts →
      Delivers c.connection.incoming answered →
        ((Client.authority Stream.transport).replies requests c).2.output = c.output ++ asked) ∧
    ∀ (far : Stream) (served : Nat) (past : List Event), far.sink.Accepts →
      Delivers far.incoming asked →
        (Server.serveFrom MemoryAuthority.authority served past far m).state.1.sink.output =
          far.sink.output ++ answered := by
  induction requests generalizing m n with
  | nil =>
      refine ⟨[], [], fun c _ _ _ => (List.append_nil _).symm, ?_⟩
      intro far served past _ h
      rw [(Server.serveFrom_end h MemoryAuthority.authority served past m).2, List.append_nil]
  | cons request rest ih =>
      obtain ⟨q, a, reply, m', exchange⟩ :=
        exists_exchange (hfits request (List.mem_cons_self ..)) n m
      obtain ⟨asked, answered, hclient, hserver⟩ :=
        ih (fun r hr => hfits r (List.mem_cons_of_mem _ hr)) m' (n + 1)
      refine ⟨q ++ asked, a ++ answered, ?_, ?_⟩
      -- the client reads its reply off the front, the rest is for the calls to come
      · intro c hn hc hin
        obtain ⟨sink, kind, haccepts, houtput, hsent⟩ := exchange.answer_eq hn hc
        have hin' : Delivers
            (⟨⟨c.connection.incoming, sink⟩, n + 1⟩ : Client Stream).connection.incoming
            (a ++ answered) := hin
        obtain ⟨left, events, hleft, hawait⟩ := exchange.await_eq hin' kind
        rw [Authority.replies_cons, hsent, hawait]
        refine (hclient ⟨⟨left, sink⟩, n + 1⟩ rfl haccepts hleft).trans ?_
        rw [← List.append_assoc]
        exact congrArg (· ++ asked) houtput
      · intro far served past hf hin
        obtain ⟨far', past', hin', hf', hfar', hserve⟩ := exchange.serveFrom_eq hin hf served past
        rw [hserve, hserver far' (served + 1) past' hf' hin', hfar', List.append_assoc]

/-- A sink that takes everything at once. -/
theorem accepts_default : Sink.Accepts {} := ⟨fun _ => .inl rfl, rfl⟩

/-- Requests that fit can all be exchanged over streams. -/
theorem exists_session {requests : List Request} (hfits : ∀ request ∈ requests, request.Fits)
    (m : MemoryAuthority) : ∃ near far, Session requests m near far := by
  obtain ⟨asked, answered, hclient, hserver⟩ := exists_transcript hfits m 1
  -- each end is handed in one piece what the other will have written
  have hasked := hclient (Client.ofStream ⟨[.chunk answered], {}⟩) rfl accepts_default
    (Source.delivers_chunk answered)
  have hanswered := hserver ⟨[.chunk asked], {}⟩ 0 [] accepts_default (Source.delivers_chunk asked)
  refine ⟨⟨[.chunk answered], {}⟩, ⟨[.chunk asked], {}⟩, accepts_default, accepts_default, rfl, rfl,
    ?_, ?_⟩
  · rw [hasked]
    exact Source.delivers_chunk asked
  · rw [Server.serve, hanswered]
    exact Source.delivers_chunk answered

/-- **The wire is transparent.**  Whatever requests a client makes, as long as each fits a frame,
they have a session; and in every session the client gets the replies that the authority gives to
the requests themselves, the authority ends in the state in which they leave it, and the server
reports their number. -/
theorem session_transparent (m : MemoryAuthority) {requests : List Request}
    (hfits : ∀ request ∈ requests, request.Fits) :
    (∃ near far, Session requests m near far) ∧
    ∀ near far, Session requests m near far →
      ((Client.authority Stream.transport).replies requests (Client.ofStream near)).1 =
          (MemoryAuthority.authority.replies requests m).1 ∧
        (Server.serve MemoryAuthority.authority far m).state.2 =
          (MemoryAuthority.authority.replies requests m).2 ∧
        (Server.serve MemoryAuthority.authority far m).result = .ok requests.length := by
  refine ⟨exists_session hfits m, fun near far h => ?_⟩
  have hnear : (Client.ofStream near).output = [] := h.nearFresh
  obtain ⟨hreplies, hstate, hresult⟩ := replies_eq_of_delivers (c := Client.ofStream near) hfits
    h.nearAccepts h.farAccepts (by rw [hnear, List.nil_append])
    (by rw [h.farFresh, List.nil_append]; rfl) h.toServer h.toClient
  exact ⟨hreplies, hstate, hresult.trans (by rw [Nat.zero_add])⟩

/-- A semaphore named `s` is made, and then asked for by its handle. -/
def smallRequests : List Request :=
  [.create ⟨1, ⟨0⟩, 2, 5, some { name := some "s" }⟩, .query .first]

/-- Over the wire of a new authority, both requests are answered with the semaphore. -/
theorem session_transparent_small : ∃ near far,
    Session smallRequests ⟨some (.start ⟨[]⟩ .usual 0)⟩ near far ∧
    ((Client.authority Stream.transport).replies smallRequests (Client.ofStream near)).1 =
      [.ok ⟨.success, some .first, ⟨0⟩, 1⟩, .ok ⟨.success, some .first, ⟨0⟩, 1⟩] := by
  have hfits : ∀ request ∈ smallRequests, request.Fits := by
    intro request h
    simp only [smallRequests, List.mem_cons, List.not_mem_nil, or_false] at h
    rcases h with rfl | rfl
    · exact ⟨_, by cbv, by decide⟩
    · trivial
  obtain ⟨⟨near, far, h⟩, hall⟩ :=
    session_transparent ⟨some (.start ⟨[]⟩ .usual 0)⟩ hfits
  refine ⟨near, far, h, (hall near far h).1.trans ?_⟩
  cbv

end SharedSync
