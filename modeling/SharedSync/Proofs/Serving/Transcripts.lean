import SharedSync.Authority
import SharedSync.Proofs.Authority.Session
import SharedSync.Proofs.Serving.Connections

/-!
# Serving — what one connection comes to

A server reads the frames at the front of the bytes that arrive, answers each, and stops in front of
the first thing that it cannot answer: the end of the bytes, bytes that are no frame, a reply, or a
request that its authority fails on.  `Transcript` says what it has answered, and `Stop` why it
stopped; both speak of the bytes and the authority only, not of how the bytes arrive.

* `response_respond`: the three ways in which a frame is responded to.
* `serveWithin_eq`: a connection takes as many rounds as there are headers in its bytes, and one.
* `respond_recorded`: each frame is one request to the authority, or none.
* `transcript_serveFrom`: a connection that brings the bytes `b` has a transcript of `b`; it wrote the
  replies and asked for the requests.
* `serve_transcript`: and it is done in time, and reports how many replies there are just when nothing
  is left.
-/

namespace SharedSync

namespace Server

open Source (Delivers)
open Connection (Effect)

variable {σ : Type} {a : Authority σ} {f : Frame} {s s' : σ} {b : Bytes}

/-! ### Responses -/

/-- How a frame is responded to. -/
inductive Response (a : Authority σ) (f : Frame) (s : σ) : Outcome σ (Except SyncError Bytes) → Prop
    where
  | answered {r bytes s' events} (asking : f.isAsking = true) (effect : Effect a s (some (f, r)) s')
      (bytes_eq : (answerFrame (f, r)).encode = .ok bytes) : Response a f s ⟨.ok bytes, s', events⟩
  | unanswered {request error s' events} (decoded : f.request? = some request)
      (answer : a.answer request s = ⟨.error error, s', events⟩) :
      Response a f s ⟨.error error, s', events⟩
  | closing (kind : f.kind = .reply) : Response a f s ⟨.error (.protocol .replyFromClient), s, []⟩

/-- A frame with a request in it asks. -/
theorem isAsking_of_request? {request : Request} (h : f.request? = some request) :
    f.isAsking = true := by
  rcases f with ⟨kind, number, payload⟩
  cases kind with
  | createObject => rfl
  | queryObject => rfl
  | reply => cases h

theorem respond_of_ok {r : Reply} {events : List Event} (h : reply a f s = ⟨.ok r, s', events⟩) :
    ∃ bytes, respond a f s = ⟨.ok bytes, s', events⟩ ∧ (answerFrame (f, r)).encode = .ok bytes := by
  obtain ⟨bytes, hbytes, hencode⟩ := exists_replyBytes f r
  refine ⟨bytes, ?_, hencode⟩
  simp only [respond, h, hbytes]

theorem respond_of_error {error : SyncError} {events : List Event}
    (h : reply a f s = ⟨.error error, s', events⟩) :
    respond a f s = ⟨.error error, s', events⟩ := by
  simp only [respond, h]

/-- **A frame is answered, or the authority fails on it, or it is a reply.** -/
theorem response_respond (a : Authority σ) (f : Frame) (s : σ) :
    Response a f s (respond a f s) := by
  by_cases hkind : f.kind = .reply
  · have hreply : reply a f s = ⟨.error (.protocol .replyFromClient), s, []⟩ := by
      simp only [reply, hkind]
    rw [respond_of_error hreply]
    exact .closing hkind
  · have hr := answering_reply a f s
    generalize hreply : reply a f s = outcome at hr
    cases hr with
    | @asked request decoded =>
        rcases hanswer : a.answer request s with ⟨error | r, s', events⟩
        · rw [respond_of_error (hreply.trans hanswer)]
          exact .unanswered decoded hanswer
        · obtain ⟨bytes, hrespond, hencode⟩ := respond_of_ok (hreply.trans hanswer)
          rw [hrespond]
          exact .answered (isAsking_of_request? decoded) (.asked decoded hanswer) hencode
    | refused asking undecoded =>
        obtain ⟨bytes, hrespond, hencode⟩ := respond_of_ok hreply
        rw [hrespond]
        exact .answered asking (.refused undecoded) hencode
    | closing reply =>
        rw [Frame.isAsking, bne_eq_false_iff_eq] at reply
        exact absurd reply hkind

/-! ### Rounds -/

/-- The loop of `serveFrom`, given up if it is not done after so many rounds. -/
def serveWithin (a : Authority σ) : (rounds served : Nat) → List Event → Stream → σ →
    Option (Outcome (Stream × σ) (Except SyncError Nat))
  | 0, _, _, _, _ => none
  | rounds + 1, served, past, stream, s =>
      match Stream.readFrame stream.incoming with
      | (.error error, incoming) =>
          some ⟨.error error, ({ stream with incoming }, s), past.reverse⟩
      | (.ok none, incoming) =>
          some ⟨.ok served, ({ stream with incoming }, s),
            (Event.connectionClosed served :: past).reverse⟩
      | (.ok (some frame), incoming) =>
          match respond a frame s with
          | ⟨.error error, s, events⟩ =>
              some ⟨.error error, ({ stream with incoming }, s), past.reverse ++ events⟩
          | ⟨.ok bytes, s, events⟩ =>
              match stream.sink.send bytes with
              | (.error error, sink) =>
                  some ⟨.error (.system error), (⟨incoming, sink⟩, s), past.reverse ++ events⟩
              | (.ok (), sink) =>
                  serveWithin a rounds (served + 1) (events.reverse ++ past) ⟨incoming, sink⟩ s

/-- **A connection takes as many rounds as there are headers in its bytes, and one.** -/
theorem serveWithin_eq (a : Authority σ) {rounds served : Nat} {past : List Event}
    {stream : Stream} {s : σ}
    (h : Source.unread stream.incoming < Limits.frameHeaderBytes * rounds) :
    serveWithin a rounds served past stream s = some (serveFrom a served past stream s) := by
  induction rounds generalizing served past stream s with
  | zero => exact absurd h (Nat.not_lt_zero _)
  | succ rounds ih =>
      rcases hread : Stream.readFrame stream.incoming with ⟨error | - | frame, incoming⟩
      · simp only [serveWithin, hread, serveFrom_of_error hread]
      · simp only [serveWithin, hread, serveFrom_of_end hread]
      · -- the frame took a header off the stream
        have hheader := Stream.unread_readFrame hread
        have hleft : Source.unread incoming < Limits.frameHeaderBytes * rounds := by
          rw [Nat.mul_succ] at h
          omega
        rcases hrespond : respond a frame s with ⟨error | bytes, s', events⟩
        · simp only [serveWithin, hread, serveFrom_of_frame hread, hrespond]
        · rcases hsend : stream.sink.send bytes with ⟨error | done, sink⟩
          · simp only [serveWithin, hread, serveFrom_of_frame hread, hrespond, hsend]
          · simp only [serveWithin, hread, serveFrom_of_frame hread, hrespond, hsend]
            exact ih hleft

/-! ### What was answered -/

/-- The requests among the frames that were answered, with their replies. -/
def exchanges (answered : List (Frame × Reply)) : List (Request × Reply) :=
  answered.filterMap fun x => x.1.request?.map (·, x.2)

variable {answered : List (Frame × Reply)} {r : Reply} {rest : Bytes} {mid : σ}

theorem exchanges_cons_of_some {request : Request} (h : f.request? = some request) :
    exchanges ((f, r) :: answered) = (request, r) :: exchanges answered := by
  rw [exchanges, List.filterMap_cons, h]
  rfl

theorem exchanges_cons_of_none (h : f.request? = none) :
    exchanges ((f, r) :: answered) = exchanges answered := by
  rw [exchanges, List.filterMap_cons, h]
  rfl

theorem requests_cons : (exchanges ((f, r) :: answered)).map Prod.fst =
    f.request?.toList ++ (exchanges answered).map Prod.fst := by
  cases h : f.request? with
  | none => rw [exchanges_cons_of_none h]; rfl
  | some request => rw [exchanges_cons_of_some h]; rfl

/-- The frames at the front of the bytes `b`, as they are answered from the state `s` on; `rest` are
the bytes behind them, and `mid` is the state that they leave. -/
structure Transcript (a : Authority σ) (b : Bytes) (s : σ) (answered : List (Frame × Reply))
    (rest : Bytes) (mid : σ) : Prop where
  read : ∃ front, Stream.encodeAll (answered.map Prod.fst) = .ok front ∧ b = front ++ rest
  asking : ∀ x ∈ answered, x.1.isAsking = true
  /-- What cannot be decoded is answered for the authority. -/
  refused : ∀ x ∈ answered, x.1.request? = none → x.2 = x.1.refusal
  /-- The authority answered the others, one after the other. -/
  replies : a.replies ((exchanges answered).map Prod.fst) s =
    ((exchanges answered).map fun exchange => .ok exchange.2, mid)

/-- What a server stops in front of, if it has answered so many frames: what it reports then, what it
has asked the authority for in vain, and the state of that. -/
inductive Stop (a : Authority σ) (served : Nat) (rest : Bytes) (mid : σ) :
    Except SyncError Nat → List Request → σ → Prop where
  | ended (nothing : rest = []) : Stop a served rest mid (.ok served) [] mid
  | unreadable {error consumed} (front : Stream.Front rest (.error error) consumed) :
      Stop a served rest mid (.error error) [] mid
  | reply {frame} (decoded : Frame.decode rest = .ok frame) (kind : frame.kind = .reply) :
      Stop a served rest mid (.error (.protocol .replyFromClient)) [] mid
  | unanswered {frame request error after events} (decoded : Frame.decode rest = .ok frame)
      (asks : frame.request? = some request)
      (answer : a.answer request mid = ⟨.error error, after, events⟩) :
      Stop a served rest mid (.error error) [request] after

theorem transcript_nil (a : Authority σ) (b : Bytes) (s : σ) : Transcript a b s [] b s :=
  ⟨⟨[], rfl, rfl⟩, nofun, nofun, rfl⟩

/-- A frame that is answered comes first. -/
theorem Transcript.cons (h : Transcript a (b.drop (Frame.span b)) s' answered rest mid)
    (decoded : Frame.decode b = .ok f) (asking : f.isAsking = true)
    (effect : Effect a s (some (f, r)) s') : Transcript a b s ((f, r) :: answered) rest mid := by
  obtain ⟨⟨front, hfront, hb⟩, hasking, hrefused, hreplies⟩ := h
  refine ⟨?read, List.forall_mem_cons.mpr ⟨asking, hasking⟩,
    List.forall_mem_cons.mpr ⟨?refused, hrefused⟩, ?replies⟩
  case read =>
    refine ⟨b.take (Frame.span b) ++ front,
      Stream.encodeAll_of_cons (Frame.encode_of_decode decoded).1 hfront, ?_⟩
    rw [List.append_assoc, ← hb, List.take_append_drop]
  case refused =>
    intro undecoded
    cases effect with
    | asked decoded => exact absurd (undecoded.symm.trans decoded) nofun
    | refused => rfl
  case replies =>
    cases effect with
    | asked asks answer =>
        rw [exchanges_cons_of_some asks, List.map_cons, Authority.replies_cons, answer, hreplies]
        rfl
    | refused undecoded =>
        rw [exchanges_cons_of_none undecoded]
        exact hreplies

/-- A front that is refused is not empty. -/
theorem ne_nil_of_front {error : SyncError} {consumed : Nat}
    (h : Stream.Front b (.error error) consumed) : b ≠ [] := by
  rintro rfl
  cases h with
  | cutLength something => exact something rfl
  | tooSmall field => exact absurd field (by decide)
  | tooLarge field => exact absurd field (by decide)
  | cutBody announces => exact absurd announces.field (by decide)
  | unknownVersion whole => exact absurd whole.field (by decide)
  | unknownKind whole => exact absurd whole.field (by decide)

/-- Something is left unless the bytes have ended. -/
theorem Stop.result_eq_ok_iff {served n : Nat} {result : Except SyncError Nat}
    {vain : List Request} (h : Stop a served rest mid result vain s) :
    result = .ok n ↔ rest = [] ∧ n = served := by
  have hdecode : ∀ {frame}, Frame.decode rest = .ok frame → rest ≠ [] := by
    rintro frame decoded rfl
    cases decoded
  cases h with
  | ended nothing => rw [Except.ok.injEq, eq_comm, and_iff_right nothing]
  | unreadable front => exact ⟨nofun, fun h => absurd h.1 (ne_nil_of_front front)⟩
  | reply decoded => exact ⟨nofun, fun h => absurd h.1 (hdecode decoded)⟩
  | unanswered decoded => exact ⟨nofun, fun h => absurd h.1 (hdecode decoded)⟩

/-! ### What the authority was asked for -/

/-- The record is kept beside what the authority does. -/
theorem reply_recorded (a : Authority σ) (f : Frame) (s : σ) (log : List Request) :
    reply a.recorded f (s, log) =
      (reply a f s).inside fun s' => (s', log ++ f.request?.toList) := by
  have hnone : (s, log) = (s, log ++ (none : Option Request).toList) :=
    congrArg (s, ·) (List.append_nil log).symm
  rcases f with ⟨kind, number, payload⟩
  cases kind with
  | createObject =>
      simp only [reply, Frame.request?]
      cases CreateRequest.decode? payload with
      | none => rw [hnone]; rfl
      | some request => rfl
  | queryObject =>
      simp only [reply, Frame.request?]
      cases Query.decode? payload with
      | none => rw [hnone]; rfl
      | some handle => rfl
  | reply => rw [hnone]; rfl

/-- The authority is asked for the request of the frame, if there is one, and once. -/
theorem respond_recorded (a : Authority σ) (f : Frame) (s : σ) (log : List Request) :
    respond a.recorded f (s, log) =
      (respond a f s).inside fun s' => (s', log ++ f.request?.toList) := by
  rw [respond, respond, reply_recorded]
  rcases reply a f s with ⟨error | r, s', events⟩ <;> rfl

/-! ### The whole connection -/

variable {served : Nat} {past : List Event} {stream : Stream} {incoming : List Arrival}

/-- What is read from a stream is the front of the bytes that it brings. -/
theorem front_of_readFrame {result : Except SyncError (Option Frame)}
    (h : Delivers stream.incoming b) (hread : Stream.readFrame stream.incoming = (result, incoming)) :
    ∃ consumed, Stream.Front b result consumed ∧ Delivers incoming (b.drop consumed) := by
  obtain ⟨incoming', hread', hrest⟩ := Stream.readFrame_eq_readBuffer h
  obtain ⟨hresult, hincoming⟩ := Prod.mk.inj (hread.symm.trans hread')
  exact ⟨_, hresult ▸ Stream.front_readBuffer b, hincoming ▸ hrest⟩

/-- **A connection that brings the bytes `b` has a transcript of `b`**, with the replies that it
wrote and the requests that it made. -/
theorem transcript_serveFrom (a : Authority σ) (served : Nat) (past : List Event) (stream : Stream)
    (s : σ) (delivers : Delivers stream.incoming b) (accepts : stream.sink.Accepts)
    (log : List Request) : ∃ answered rest mid vain written,
      Transcript a b s answered rest mid ∧
      Stop a (served + answered.length) rest mid (serveFrom a served past stream s).result vain
        (serveFrom a served past stream s).state.2 ∧
      Stream.encodeAll (answered.map answerFrame) = .ok written ∧
      (serveFrom a served past stream s).state.1.sink.output = stream.sink.output ++ written ∧
      serveFrom a.recorded served past stream (s, log) =
        (serveFrom a served past stream s).inside fun ended =>
          (ended.1, ended.2, log ++ (exchanges answered).map Prod.fst ++ vain) := by
  -- the rounds of the server, by how each of them ends; `b` is what is still to come
  fun_induction serveFrom a served past stream s generalizing b log with
  | case1 served past stream s error incoming hread =>
      obtain ⟨consumed, front, -⟩ := front_of_readFrame delivers hread
      refine ⟨[], b, s, [], [], transcript_nil a b s, .unreadable front, rfl,
        (List.append_nil _).symm, ?_⟩
      simp [serveFrom_of_error hread, exchanges, Outcome.inside]
  | case2 served past stream s incoming hread =>
      obtain ⟨consumed, front, -⟩ := front_of_readFrame delivers hread
      cases front with
      | empty nothing =>
          refine ⟨[], b, s, [], [], transcript_nil a b s, .ended nothing, rfl,
            (List.append_nil _).symm, ?_⟩
          simp [serveFrom_of_end hread, exchanges, Outcome.inside]
  | case3 served past stream s frame incoming hread error s' events hrespond =>
      obtain ⟨consumed, front, -⟩ := front_of_readFrame delivers hread
      have hresponse := response_respond a frame s
      rw [hrespond] at hresponse
      have hrecorded := respond_recorded a frame s log
      rw [hrespond] at hrecorded
      cases front with
      | frame whole decoded =>
          cases hresponse with
          | @unanswered request _ _ _ asks answer =>
              refine ⟨[], b, s, [request], [], transcript_nil a b s,
                .unanswered decoded asks answer, rfl, (List.append_nil _).symm, ?_⟩
              simp [serveFrom_of_frame hread, hrecorded, exchanges, asks, Outcome.inside]
          | closing kind =>
              refine ⟨[], b, s, [], [], transcript_nil a b s, .reply decoded kind, rfl,
                (List.append_nil _).symm, ?_⟩
              simp [serveFrom_of_frame hread, hrecorded, exchanges, Frame.request?, kind,
                Outcome.inside]
  -- a sink that accepts refuses no reply
  | case4 served past stream s frame incoming hread bytes s' events hrespond error sink hsend =>
      obtain ⟨sink', hsend', -⟩ := Sink.send_of_accepts accepts bytes
      rw [hsend] at hsend'
      cases hsend'
  | case5 served past stream s frame incoming hread bytes s' events hrespond sink hsend ih =>
      obtain ⟨consumed, front, hrest⟩ := front_of_readFrame delivers hread
      have hresponse := response_respond a frame s
      rw [hrespond] at hresponse
      have hrecorded := respond_recorded a frame s log
      rw [hrespond] at hrecorded
      obtain ⟨sink', hsend', haccepts, houtput⟩ := Sink.send_of_accepts accepts bytes
      obtain rfl : sink = sink' := (Prod.mk.inj (hsend.symm.trans hsend')).2
      cases front with
      | frame whole decoded =>
          cases hresponse with
          | @answered r _ _ _ asking effect encode =>
              obtain ⟨answered, rest, mid, vain, written, transcript, stop, hwritten, hout, hlog⟩ :=
                ih hrest haccepts (log ++ frame.request?.toList)
              refine ⟨(frame, r) :: answered, rest, mid, vain, bytes ++ written,
                transcript.cons decoded asking effect, ?_, Stream.encodeAll_of_cons encode hwritten,
                ?_, ?_⟩
              · rwa [List.length_cons, Nat.add_comm answered.length, ← Nat.add_assoc]
              · rw [hout, houtput, List.append_assoc]
              · simp only [serveFrom_of_frame hread, hrecorded, Outcome.inside, hsend, hlog,
                  requests_cons, List.append_assoc]

/-- **A connection is served as its bytes say.**  However the bytes `b` arrive, and in whatever pieces
replies are taken, the server is done within as many rounds as there are headers in `b`, and one.  It
has answered frames at the front of `b`, each once and in their order, and wrote just the replies; it
has asked the authority for the requests among them, and at most one more, on which it stopped; and it
reports the number of replies exactly if nothing of `b` is left. -/
theorem serve_transcript (a : Authority σ) (s : σ) (stream : Stream) {b : Bytes}
    (delivers : Delivers stream.incoming b) (accepts : stream.sink.Accepts) :
    serveWithin a (b.length / Limits.frameHeaderBytes + 1) 0 [] stream s = some (serve a stream s) ∧
    ∃ answered rest mid vain written,
      Transcript a b s answered rest mid ∧
      Stop a answered.length rest mid (serve a stream s).result vain (serve a stream s).state.2 ∧
      Stream.encodeAll (answered.map answerFrame) = .ok written ∧
      (serve a stream s).state.1.sink.output = stream.sink.output ++ written ∧
      serve a.recorded stream (s, []) = (serve a stream s).inside (fun ended =>
        (ended.1, ended.2, (exchanges answered).map Prod.fst ++ vain)) ∧
      ∀ n, (serve a stream s).result = .ok n ↔ rest = [] ∧ n = answered.length := by
  have hunread : Source.unread stream.incoming <
      Limits.frameHeaderBytes * (b.length / Limits.frameHeaderBytes + 1) := by
    rw [delivers.unread_eq]
    exact Nat.lt_mul_div_succ b.length (by decide)
  obtain ⟨answered, rest, mid, vain, written, transcript, stop, hwritten, houtput, hrecorded⟩ :=
    transcript_serveFrom a 0 [] stream s delivers accepts []
  rw [Nat.zero_add] at stop
  exact ⟨serveWithin_eq a hunread, answered, rest, mid, vain, written, transcript, stop, hwritten,
    houtput, hrecorded, fun n => stop.result_eq_ok_iff⟩

namespace Small

/-- Three queries, of which the second is cut short, and the first once more. -/
def queries : Bytes :=
  [0, 0, 0, 16, 0, 1, 0, 2, 0, 0, 0, 0, 0, 0, 0, 7, 4, 0, 0, 0,
    0, 0, 0, 13, 0, 1, 0, 2, 0, 0, 0, 0, 0, 0, 0, 8, 4,
    0, 0, 0, 16, 0, 1, 0, 2, 0, 0, 0, 0, 0, 0, 0, 9, 8, 0, 0, 0,
    0, 0, 0, 16, 0, 1, 0, 2, 0, 0, 0, 0, 0, 0, 0, 7, 4, 0, 0, 0]

/-- An authority that knows one answer. -/
def script : Script := ⟨[.ok ⟨.success, some .first, ⟨0⟩, 1⟩], []⟩

/-- The queries come in two pieces, with an interruption, and the replies leave in pieces of three. -/
def inPieces : Stream :=
  ⟨[.chunk (queries.take 7), .failure .interrupted, .chunk (queries.drop 7)],
    { respond := fun _ => .atMost 3 }⟩

/-- A reply that names the first handle, and one that says that a handle is invalid. -/
def replies : Bytes :=
  [0, 0, 0, 28, 0, 1, 0, 3, 0, 0, 0, 0, 0, 0, 0, 7, 0, 0, 0, 0, 4, 0, 0, 0, 0, 0, 0, 0, 1, 0, 0, 0,
    0, 0, 0, 28, 0, 1, 0, 3, 0, 0, 0, 0, 0, 0, 0, 8, 8, 0, 0, 192, 0, 0, 0, 0, 0, 0, 0, 0, 0, 0, 0, 0]

theorem delivers_inPieces : Delivers inPieces.incoming queries := by
  refine ⟨by decide, ?_⟩
  intro kind h
  simpa [inPieces] using h

theorem accepts_inPieces : inPieces.sink.Accepts := ⟨fun _ => .inr ⟨2, rfl⟩, rfl⟩

end Small

/-- Two queries are answered, the second for the authority; the third ends the connection, as the
authority knows no second answer. -/
theorem serve_transcript_small : ∃ answered rest mid vain,
    Transcript Script.authority Small.queries Small.script answered rest mid ∧
    Stop Script.authority answered.length rest mid (.error Script.exhausted) vain
      ⟨[], [.query ⟨8, by decide⟩, .query .first]⟩ ∧
    Stream.encodeAll (answered.map answerFrame) = .ok Small.replies ∧
    (exchanges answered).map Prod.fst ++ vain = [.query .first, .query ⟨8, by decide⟩] := by
  obtain ⟨hserve, answered, rest, mid, vain, written, transcript, stop, hwritten, houtput, hrecorded,
    -⟩ := serve_transcript Script.authority Small.script Small.inPieces Small.delivers_inPieces
      Small.accepts_inPieces
  have hrun : (serveWithin Script.authority (Small.queries.length / Limits.frameHeaderBytes + 1) 0 []
      Small.inPieces Small.script).map (fun o => (o.result, o.state.2, o.state.1.sink.output)) =
        some (.error Script.exhausted, ⟨[], [.query ⟨8, by decide⟩, .query .first]⟩,
          Small.replies) := by cbv
  have hcalls : (serveWithin Script.authority.recorded 5 0 [] Small.inPieces
      (Small.script, [])).map (fun o => o.state.2.2) =
        some [.query .first, .query ⟨8, by decide⟩] := by cbv
  rw [hserve] at hrun
  rw [serveWithin_eq _ (by decide)] at hcalls
  simp only [Option.map_some, Option.some.injEq, Prod.mk.injEq] at hrun
  obtain ⟨hresult, hstate, hout⟩ := hrun
  rw [hresult, hstate] at stop
  refine ⟨answered, rest, mid, vain, transcript, stop, ?_, ?_⟩
  · rw [hwritten, ← hout, houtput]
    rfl
  · rw [← serve, hrecorded] at hcalls
    exact Option.some.inj hcalls

end Server

end SharedSync
