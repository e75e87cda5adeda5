import SharedSync.Authority.Client
import SharedSync.Authority.Memory
import SharedSync.Authority.Server
import SharedSync.Proofs.Stream.Delivery

/-!
# Authority — one exchange over a stream

A request travels in a frame, and so does its reply.  With an authority that answers from memory
at the serving end, the client gets the reply that the authority gives to the request itself.

* `create_normal`: an authority does not see whether a name was empty or absent.
* `exists_exchange`: every request that fits a frame has its two frames.
* `Exchange.serveFrom_eq`, `Exchange.await_eq`: the two ends of one exchange.
* `Client.await_receive`: over any transport, a client takes its reply from the frame it receives.
-/

namespace SharedSync

open Source (Delivers)

/-! ### The authority -/

namespace Registry

/-- An empty name registers nothing, so leaving it out changes nothing. -/
theorem nameOf_normal (request : CreateRequest) : nameOf request.normal = nameOf request := by
  rcases request with ⟨type, access, low, high, - | ⟨root, flags, - | name, descriptor⟩⟩
  · rfl
  · rfl
  · simp only [nameOf, CreateRequest.normal, ObjectAttributes.normal, Option.map_some,
      Option.bind_some, Option.filter_filter, Bool.and_self]

/-- What an authority reads of a create request. -/
theorem create_congr (r : Registry) {request other : CreateRequest}
    (htype : request.type = other.type) (hlow : request.low = other.low)
    (hhigh : request.high = other.high) (hname : nameOf request = nameOf other)
    (fault : Option FileFault) : r.create request fault = r.create other fault := by
  have hbounds : boundsOk request = boundsOk other := by simp only [boundsOk, hlow, hhigh]
  have hblock : writeBlock.block request = writeBlock.block other := by
    simp only [writeBlock.block, hlow, hhigh]
  have hwrite : ∀ slot, r.writeBlock slot request fault = r.writeBlock slot other fault :=
    fun slot => by simp only [writeBlock, hblock]
  have hregister : ∀ kind, r.register request kind fault = r.register other kind fault :=
    fun kind => by simp only [register, hwrite, hname]
  simp only [create, htype, hbounds, hname, hregister]

/-- While its file works, an authority answers a creation with a named status. -/
theorem create_answers (r : Registry) (request : CreateRequest) :
    ∃ reply, (r.create request).result = .ok reply ∧ reply.status.isNamed := by
  unfold create
  cases ObjectKind.ofTag? request.type with
  | none => exact ⟨_, rfl, rfl⟩
  | some kind =>
      by_cases hb : boundsOk request = true
      · simp only [hb, Bool.not_true, Bool.false_eq_true, if_false]
        cases r.find? (nameOf request) with
        | some e =>
            by_cases hk : e.kind ≠ kind
            · simp only [if_pos hk]
              exact ⟨_, rfl, rfl⟩
            · simp only [if_neg hk]
              exact ⟨_, rfl, rfl⟩
        | none =>
            simp only [register]
            cases r.issue? with
            | none => exact ⟨_, rfl, rfl⟩
            | some issued => exact ⟨_, rfl, rfl⟩
      · simp only [Bool.not_eq_true] at hb
        simp only [hb, Bool.not_false, if_true]
        exact ⟨_, rfl, rfl⟩

/-- The registry answers a query with a status that has a name. -/
theorem query_named (r : Registry) (handle : Handle) : (r.query handle).status.isNamed := by
  unfold query
  cases r.byHandle[handle.raw]?.bind fun position => r.objects[position]? with
  | none => rfl
  | some e => rfl

end Registry

namespace MemoryAuthority

/-- The authority does not see whether a name was empty or absent. -/
theorem create_normal (request : CreateRequest) (m : MemoryAuthority) :
    authority.create request.normal m = authority.create request m := by
  rcases m with ⟨- | r⟩
  · rfl
  · have h : r.create request.normal = r.create request :=
      @Registry.create_congr r request.normal request rfl rfl rfl (Registry.nameOf_normal request)
        none
    simp only [authority, h]

/-- The authority answers every request, with a status that has a name. -/
theorem answers (request : Request) (m : MemoryAuthority) :
    ∃ reply, (authority.answer request m).result = .ok reply ∧ reply.status.isNamed := by
  rcases m with ⟨- | r⟩
  · cases request <;> exact ⟨_, rfl, rfl⟩
  · cases request with
    | create request => exact r.create_answers request
    | query handle => exact ⟨_, rfl, r.query_named handle⟩

end MemoryAuthority

/-! ### Requests in frames -/

/-- The request can be encoded, and fits a frame. -/
def Request.Fits : Request → Prop
  | .create request => ∃ bytes, request.encode = .ok bytes ∧ bytes.length ≤ Frame.maxPayload
  | .query _ => True

/-- The frame in which a request travels. -/
inductive Frame.Carries : Frame → Request → Prop where
  | create {request payload n} (h : request.encode = .ok payload) :
      Carries ⟨.createObject, n, payload⟩ (.create request)
  | query {handle n} : Carries ⟨.queryObject, n, Query.encode handle⟩ (.query handle)

/-- A request that fits is carried by a frame with any number. -/
theorem Request.Fits.exists_frame {request : Request} (h : request.Fits) (n : UInt64) :
    ∃ f bytes, Frame.Carries f request ∧ f.request = n ∧ f.encode = .ok bytes := by
  cases request with
  | create request =>
      obtain ⟨payload, hp, hle⟩ := h
      obtain ⟨bytes, hb⟩ := @Frame.exists_encode ⟨.createObject, n, payload⟩ hle
      exact ⟨_, bytes, .create hp, rfl, hb⟩
  | query handle =>
      have hle : (Query.encode handle).length ≤ Frame.maxPayload := by
        rw [Query.encode, Words.length_le32]
        decide
      obtain ⟨bytes, hb⟩ := @Frame.exists_encode ⟨.queryObject, n, Query.encode handle⟩ hle
      exact ⟨_, bytes, .query, rfl, hb⟩

/-- A client sends a request in its frame. -/
theorem Frame.Carries.call_eq {f : Frame} {request : Request} (h : f.Carries request) {τ : Type}
    (t : Transport τ) (c : Client τ) :
    (Client.authority t).answer request c = Client.call t f.kind f.payload c := by
  cases h with
  | create h => simp only [Authority.answer, Client.authority, h]
  | query => rfl

section Unsent

variable {τ : Type} (t : Transport τ)

/-- A request that cannot be encoded takes no number. -/
theorem Client.answer_of_refused {r : CreateRequest} {fault : AttributesFault}
    (h : r.encode = .error fault) (c : Client τ) :
    (Client.authority t).answer (.create r) c = ⟨.error (.invalidAttributes fault), c, []⟩ := by
  simp only [Authority.answer, Client.authority, h]

/-- A frame that is too long takes its number, and is not sent. -/
theorem Client.answer_of_oversized {f : Frame} {request : Request} {c : Client τ}
    (carries : f.Carries request) (number : f.request = c.next)
    (long : Frame.maxPayload < f.payload.length) :
    (Client.authority t).answer request c =
      ⟨.error (.ofFrameError (.payloadTooLarge f.payload.length)),
        { c with next := c.next + 1 }, []⟩ := by
  have hencode : f.encode = .error (.payloadTooLarge f.payload.length) := if_pos long
  rw [carries.call_eq, Client.call]
  simp only [← number, hencode]

end Unsent

/-- A server answers the frame as the authority answers the request. -/
theorem Frame.Carries.reply_eq {f : Frame} {request : Request} (h : f.Carries request)
    (m : MemoryAuthority) : Server.reply MemoryAuthority.authority f m =
      MemoryAuthority.authority.answer request m := by
  cases h with
  | create h =>
      simp only [Server.reply, CreateRequest.decode?_encode h, Authority.answer,
        MemoryAuthority.create_normal]
  | query => simp only [Server.reply, Query.decode?_encode, Authority.answer]

/-! ### The two ends -/

/-- A client accepts a reply that has its number. -/
theorem Client.accept_of_decode? {payload : Bytes} {reply : Reply}
    (h : Reply.decode? payload = some reply) (number : UInt64) :
    accept number (some ⟨.reply, number, payload⟩) = .ok reply := by
  simp only [accept, ne_eq, not_true_eq_false, if_false, h]

/-- Request number `n` and its reply in their frames, with what the authority does in between. -/
structure Exchange (request : Request) (n : UInt64) (m : MemoryAuthority) (asked answered : Bytes)
    (reply : Reply) (m' : MemoryAuthority) : Prop where
  asked : ∃ f : Frame, f.Carries request ∧ f.request = n ∧ f.encode = .ok asked
  answer : (MemoryAuthority.authority.answer request m).result = .ok reply ∧
    (MemoryAuthority.authority.answer request m).state = m'
  named : reply.status.isNamed
  answered : Frame.encode ⟨.reply, n, reply.encode⟩ = .ok answered

/-- Every request that fits has its exchange of frames. -/
theorem exists_exchange {request : Request} (h : request.Fits) (n : UInt64) (m : MemoryAuthority) :
    ∃ asked answered reply m', Exchange request n m asked answered reply m' := by
  obtain ⟨f, asked, hf, hn, hasked⟩ := h.exists_frame n
  obtain ⟨reply, hreply, hnamed⟩ := MemoryAuthority.answers request m
  have hle : reply.encode.length ≤ Frame.maxPayload := by
    rw [Reply.length_encode]
    decide
  obtain ⟨answered, hanswered⟩ := @Frame.exists_encode ⟨.reply, n, reply.encode⟩ hle
  exact ⟨asked, answered, reply, _, ⟨f, hf, hn, hasked⟩, ⟨hreply, rfl⟩, hnamed, hanswered⟩

namespace Exchange

variable {request : Request} {n : UInt64} {m m' : MemoryAuthority} {asked answered tail : Bytes}
  {reply : Reply}

/-- The client writes the request's frame, and then waits. -/
theorem answer_eq (h : Exchange request n m asked answered reply m') {c : Client Stream}
    (hn : c.next = n) (hc : c.connection.sink.Accepts) :
    ∃ (sink : Sink) (kind : MessageKind), sink.Accepts ∧
      sink.output = c.connection.sink.output ++ asked ∧
      (Client.authority Stream.transport).answer request c =
        Client.await Stream.transport kind n ⟨⟨c.connection.incoming, sink⟩, n + 1⟩ := by
  obtain ⟨f, hf, hfn, hasked⟩ := h.asked
  obtain ⟨sink, hsend, haccepts, houtput⟩ := Sink.send_of_accepts hc asked
  refine ⟨sink, f.kind, haccepts, houtput, ?_⟩
  rw [hf.call_eq, Client.call]
  simp only [hn, ← hfn] at hasked ⊢
  simp only [hasked, Stream.transport, hsend]

/-- The client gets the authority's reply. -/
theorem await_eq (h : Exchange request n m asked answered reply m') {c : Client Stream}
    (hc : Delivers c.connection.incoming (answered ++ tail)) (kind : MessageKind) :
    ∃ rest events, Delivers rest tail ∧
      Client.await Stream.transport kind n c =
        ⟨.ok reply, ⟨⟨rest, c.connection.sink⟩, c.next⟩, events⟩ := by
  obtain ⟨rest, hread, hrest⟩ := Stream.readFrame_of_delivers h.answered hc
  have haccept := Client.accept_of_decode? (Reply.decode?_encode h.named) n
  refine ⟨rest, [.replied kind n reply.status], hrest, ?_⟩
  simp only [Client.await, Stream.transport, hread, haccept]

/-- The server reads the request's frame, and writes the reply's. -/
theorem serveFrom_eq (h : Exchange request n m asked answered reply m') {far : Stream}
    (hin : Delivers far.incoming (asked ++ tail)) (hout : far.sink.Accepts) (served : Nat)
    (past : List Event) :
    ∃ (far' : Stream) (past' : List Event), Delivers far'.incoming tail ∧ far'.sink.Accepts ∧
      far'.sink.output = far.sink.output ++ answered ∧
      Server.serveFrom MemoryAuthority.authority served past far m =
        Server.serveFrom MemoryAuthority.authority (served + 1) past' far' m' := by
  obtain ⟨f, hf, rfl, hasked⟩ := h.asked
  obtain ⟨rest, hread, hrest⟩ := Stream.readFrame_of_delivers hasked hin
  obtain ⟨sink, hsend, haccepts, houtput⟩ := Sink.send_of_accepts hout answered
  obtain ⟨hresult, hstate⟩ := h.answer
  rcases heq : MemoryAuthority.authority.answer request m with ⟨result, state, events⟩
  rw [heq] at hresult hstate
  obtain rfl : result = .ok reply := hresult
  obtain rfl : state = m' := hstate
  have hrespond : Server.respond MemoryAuthority.authority f m = ⟨.ok answered, state, events⟩ := by
    rw [Server.respond, hf.reply_eq, heq]
    simp only [Server.replyBytes, h.answered]
  refine ⟨⟨rest, sink⟩, events.reverse ++ past, hrest, haccepts, houtput, ?_⟩
  simp only [Server.serveFrom_of_frame hread, hrespond, hsend]

end Exchange

/-- At the end of the stream the server reports how many requests it answered. -/
theorem Server.serveFrom_end {far : Stream} (h : Delivers far.incoming []) {σ : Type}
    (a : Authority σ) (served : Nat) (past : List Event) (s : σ) :
    (serveFrom a served past far s).result = .ok served ∧
      (serveFrom a served past far s).state = (⟨[], far.sink⟩, s) := by
  rw [serveFrom_of_end (Stream.readFrame_of_delivers_nil h)]
  exact ⟨rfl, rfl⟩

/-! ### What a client accepts -/

/-- What a client accepts stood in a frame with the number of its call. -/
theorem Client.accept_eq_ok {number : UInt64} {frame : Option Frame} {reply : Reply}
    (h : accept number frame = .ok reply) :
    ∃ payload, frame = some ⟨.reply, number, payload⟩ ∧ Reply.decode? payload = some reply := by
  rcases frame with - | ⟨kind, number', payload⟩
  · cases h
  · simp only [accept] at h
    split at h
    · cases h
    · next hkind =>
        obtain rfl := Decidable.not_not.mp hkind
        split at h
        · cases h
        · next hnumber =>
            obtain rfl := Decidable.not_not.mp hnumber
            cases hd : Reply.decode? payload with
            | none => rw [hd] at h; cases h
            | some found =>
                rw [hd] at h
                cases h
                exact ⟨payload, rfl, hd⟩

/-- Waiting only receives, and what a client gets was in the frame that it received. -/
theorem Client.await_receive {τ : Type} (t : Transport τ) (kind : MessageKind) (number : UInt64)
    (c : Client τ) :
    (await t kind number c).state = { c with connection := (t.receive c.connection).2 } ∧
      ∀ reply, (await t kind number c).result = .ok reply → ∃ payload,
        (t.receive c.connection).1 = .ok (some ⟨.reply, number, payload⟩) ∧
          Reply.decode? payload = some reply := by
  rcases hr : t.receive c.connection with ⟨error | frame, connection⟩
  · simp only [await, hr]
    refine ⟨trivial, ?_⟩
    rintro reply ⟨⟩
  · cases haccept : accept number frame with
    | error error =>
        simp only [await, hr, haccept]
        refine ⟨trivial, ?_⟩
        rintro reply ⟨⟩
    | ok got =>
        obtain ⟨payload, rfl, hd⟩ := accept_eq_ok haccept
        simp only [await, hr, haccept]
        refine ⟨trivial, ?_⟩
        rintro reply ⟨⟩
        exact ⟨payload, rfl, hd⟩

/-! ### What was written stays written -/

/-- The bytes that a client wrote. -/
def Client.output (c : Client Stream) : Bytes := c.connection.sink.output

theorem Client.output_await (kind : MessageKind) (n : UInt64) (c : Client Stream) :
    (await Stream.transport kind n c).state.output = c.output := by
  rw [(await_receive Stream.transport kind n c).1]
  rfl

/-- What a call writes comes behind what was written. -/
theorem Client.output_call (kind : MessageKind) (payload : Bytes) (c : Client Stream) :
    ∃ more, (call Stream.transport kind payload c).state.output = c.output ++ more := by
  unfold call
  cases hf : Frame.encode { kind, request := c.next, payload } with
  | error error =>
      refine ⟨[], ?_⟩
      simp only [hf, List.append_nil, output]
  | ok bytes =>
      obtain ⟨more, hm⟩ := Sink.output_send c.connection.sink bytes
      rcases hs : c.connection.sink.send bytes with ⟨sent, sink⟩
      rw [hs] at hm
      refine ⟨more, ?_⟩
      simp only [hf, Stream.transport, hs]
      cases sent with
      | error error => exact hm
      | ok done => exact (Client.output_await kind c.next _).trans hm

/-- What a request writes comes behind what was written. -/
theorem Client.output_answer (request : Request) (c : Client Stream) :
    ∃ more, ((authority Stream.transport).answer request c).state.output = c.output ++ more := by
  cases request with
  | query handle => exact output_call .queryObject (Query.encode handle) c
  | create request =>
      cases hp : request.encode with
      | error fault =>
          refine ⟨[], ?_⟩
          simp only [Authority.answer, authority, hp, List.append_nil]
      | ok payload =>
          simp only [Authority.answer, authority, hp]
          exact output_call _ _ c

/-- What the server writes comes behind what was written. -/
theorem Server.output_serveFrom {σ : Type} (a : Authority σ) (served : Nat) (past : List Event)
    (far : Stream) (s : σ) :
    ∃ more, (serveFrom a served past far s).state.1.sink.output = far.sink.output ++ more := by
  fun_induction serveFrom a served past far s with
  | case1 => exact ⟨[], (List.append_nil _).symm⟩
  | case2 => exact ⟨[], (List.append_nil _).symm⟩
  | case3 => exact ⟨[], (List.append_nil _).symm⟩
  | case4 served past stream s frame incoming hread bytes s' events hrespond error sink hsend =>
      obtain ⟨more, hm⟩ := Sink.output_send stream.sink bytes
      rw [hsend] at hm
      exact ⟨more, hm⟩
  | case5 served past stream s frame incoming hread bytes s' events hrespond sink hsend ih =>
      obtain ⟨more, hm⟩ := Sink.output_send stream.sink bytes
      obtain ⟨rest, hr⟩ := ih
      rw [hsend] at hm
      exact ⟨more ++ rest, by rw [hr, hm, List.append_assoc]⟩

end SharedSync
