import SharedSync.Proofs.Authority.Exchange
import SharedSync.Proofs.Stream.Fronts

/-!
# Serving — one connection, step by step

A server takes three kinds of steps on a connection: it reads a frame, it asks the authority for
the reply, and it writes the reply.  Between two of its steps others may ask the same authority;
each time it is asked is one step.

* `steps_alone`: a connection that nobody interrupts goes as `serveFrom` says.
* `Connection.Tracks`: what a connection has answered, and what it will, are the request frames in
  its bytes, in their order, and its replies are what it has written.
* `Tracks.step`: every step keeps that, whatever others did to the authority in between.
-/

namespace SharedSync

open Source (Delivers)

/-! ### Frames from clients -/

namespace Frame

/-- A client may send the frame. -/
def isAsking (f : Frame) : Bool := f.kind != .reply

/-- The request in a frame, if it can be decoded. -/
def request? (f : Frame) : Option Request :=
  match f.kind with
  | .createObject => (CreateRequest.decode? f.payload).map .create
  | .queryObject => (Query.decode? f.payload).map .query
  | .reply => none

/-- What a frame is answered with whose request cannot be decoded. -/
def refusal (f : Frame) : Reply :=
  match f.kind with
  | .createObject => .bare .invalidParameter
  | _ => .bare .invalidHandle

/-- The frames at the front of a buffer that are served: all up to the first reply. -/
def servedIn (b : Bytes) : List Frame := (framesIn b).takeWhile isAsking

end Frame

namespace Server

variable {σ : Type} {f : Frame}

/-- What the authority is asked for a frame, and what comes of it. -/
inductive Answering (a : Authority σ) (f : Frame) (s : σ) :
    Outcome σ (Except SyncError Reply) → Prop where
  | asked {request} (decoded : f.request? = some request) : Answering a f s (a.answer request s)
  | refused {events} (asking : f.isAsking = true) (undecoded : f.request? = none) :
      Answering a f s ⟨.ok f.refusal, s, events⟩
  | closing {error} (reply : f.isAsking = false) : Answering a f s ⟨.error error, s, []⟩

/-- What `reply` does to a frame is one of the ways of answering. -/
theorem answering_reply (a : Authority σ) (f : Frame) (s : σ) : Answering a f s (reply a f s) := by
  rcases f with ⟨kind, number, payload⟩
  cases kind with
  | createObject =>
      have hr : Frame.request? ⟨.createObject, number, payload⟩ =
          (CreateRequest.decode? payload).map .create := rfl
      simp only [reply]
      cases hd : CreateRequest.decode? payload with
      | some request =>
          rw [hd] at hr
          exact Answering.asked hr
      | none =>
          rw [hd] at hr
          exact Answering.refused rfl hr
  | queryObject =>
      have hr : Frame.request? ⟨.queryObject, number, payload⟩ =
          (Query.decode? payload).map .query := rfl
      simp only [reply]
      cases hd : Query.decode? payload with
      | some handle =>
          rw [hd] at hr
          exact Answering.asked hr
      | none =>
          rw [hd] at hr
          exact Answering.refused rfl hr
  | reply => exact .closing rfl

/-- An authority in this process answers all that a client may send. -/
theorem reply_of_asking (h : f.isAsking = true) (m : MemoryAuthority) :
    ∃ r m' events, reply MemoryAuthority.authority f m = ⟨.ok r, m', events⟩ := by
  have hr := answering_reply MemoryAuthority.authority f m
  generalize reply MemoryAuthority.authority f m = outcome at hr
  cases hr with
  | @asked request _ =>
      obtain ⟨r, hok, -⟩ := MemoryAuthority.answers request m
      rcases ha : MemoryAuthority.authority.answer request m with ⟨result, m', events⟩
      rw [ha] at hok
      exact ⟨r, m', events, by rw [← hok]⟩
  | refused => exact ⟨_, _, _, rfl⟩
  | closing reply => rw [h] at reply; cases reply

/-- A frame that asks nothing is an error, and the authority is not asked. -/
theorem reply_of_not_asking (h : f.isAsking = false) (a : Authority σ) (s : σ) :
    ∃ error, reply a f s = ⟨.error error, s, []⟩ := by
  rcases f with ⟨kind, number, payload⟩
  cases kind with
  | createObject => cases h
  | queryObject => cases h
  | reply => exact ⟨_, rfl⟩

/-- The frame that answers a frame. -/
def answerFrame (answered : Frame × Reply) : Frame :=
  ⟨.reply, answered.1.request, answered.2.encode⟩

/-- Every reply fits a frame. -/
theorem exists_replyBytes (f : Frame) (r : Reply) : ∃ bytes,
    replyBytes f.request r = .ok bytes ∧ (answerFrame (f, r)).encode = .ok bytes := by
  have hle : r.encode.length ≤ Frame.maxPayload := by
    rw [Reply.length_encode]
    decide
  obtain ⟨bytes, hb⟩ := @Frame.exists_encode (answerFrame (f, r)) hle
  refine ⟨bytes, ?_, hb⟩
  simp only [answerFrame] at hb
  simp only [replyBytes, hb]

/-! ### A connection -/

/-- Where a server is on a connection. -/
inductive Phase where
  | reading
  /-- The frame is read, the authority not yet asked. -/
  | asking (frame : Frame)
  /-- The authority has answered, the reply is not yet written. -/
  | answering (bytes : Bytes)
  | closed (result : Except SyncError Nat)

/-- A server in the middle of its work on one connection. -/
structure Connection where
  stream : Stream
  /-- The number of replies written. -/
  served : Nat := 0
  phase : Phase := .reading

namespace Connection

/-- The next step. -/
def step (a : Authority σ) (c : Connection) (s : σ) : Connection × σ :=
  match c.phase with
  | .reading =>
      match Stream.readFrame c.stream.incoming with
      | (.error error, incoming) =>
          ({ c with stream := { c.stream with incoming }, phase := .closed (.error error) }, s)
      | (.ok none, incoming) =>
          ({ c with stream := { c.stream with incoming }, phase := .closed (.ok c.served) }, s)
      | (.ok (some frame), incoming) =>
          ({ c with stream := { c.stream with incoming }, phase := .asking frame }, s)
  | .asking frame =>
      match respond a frame s with
      | ⟨.error error, s, _⟩ => ({ c with phase := .closed (.error error) }, s)
      | ⟨.ok bytes, s, _⟩ => ({ c with phase := .answering bytes }, s)
  | .answering bytes =>
      match c.stream.sink.send bytes with
      | (.error error, sink) =>
          (⟨{ c.stream with sink }, c.served, .closed (.error (.system error))⟩, s)
      | (.ok (), sink) => (⟨{ c.stream with sink }, c.served + 1, .reading⟩, s)
  | .closed _ => (c, s)

/-- The frame that the next step answers, with the reply. -/
def answers? (a : Authority σ) (c : Connection) (s : σ) : Option (Frame × Reply) :=
  match c.phase with
  | .asking frame => (reply a frame s).result.toOption.map (frame, ·)
  | _ => none

/-- Several steps, with nobody in between. -/
def steps (a : Authority σ) : Nat → Connection → σ → Connection × σ
  | 0, c, s => (c, s)
  | n + 1, c, s => steps a n (c.step a s).1 (c.step a s).2

/-! #### Alone -/

/-- **A connection that nobody interrupts** comes to the end that `serveFrom` gives. -/
theorem steps_alone (a : Authority σ) (served : Nat) (past : List Event) (stream : Stream) (s : σ) :
    ∃ n count, steps a n ⟨stream, served, .reading⟩ s =
      (⟨(serveFrom a served past stream s).state.1, count,
          .closed (serveFrom a served past stream s).result⟩,
        (serveFrom a served past stream s).state.2) := by
  fun_induction serveFrom a served past stream s with
  | case1 served past stream s error incoming hread =>
      refine ⟨1, served, ?_⟩
      simp only [steps, step, hread]
  | case2 served past stream s incoming hread =>
      refine ⟨1, served, ?_⟩
      simp only [steps, step, hread]
  | case3 served past stream s frame incoming hread error s' events hrespond =>
      refine ⟨2, served, ?_⟩
      simp only [steps, step, hread, hrespond]
  | case4 served past stream s frame incoming hread bytes s' events hrespond error sink hsend =>
      refine ⟨3, served, ?_⟩
      simp only [steps, step, hread, hrespond, hsend]
  | case5 served past stream s frame incoming hread bytes s' events hrespond sink hsend ih =>
      obtain ⟨n, count, hn⟩ := ih
      refine ⟨n + 3, count, ?_⟩
      rw [← hn]
      simp only [steps, step, hread, hrespond, hsend]

/-! #### What a connection has answered -/

/-- The frames that the connection has yet to answer. -/
def ahead (c : Connection) : List Frame :=
  match c.phase with
  | .reading => Frame.servedIn (Source.pending c.stream.incoming)
  | .asking frame =>
      (frame :: Frame.framesIn (Source.pending c.stream.incoming)).takeWhile Frame.isAsking
  | .answering _ => Frame.servedIn (Source.pending c.stream.incoming)
  | .closed _ => []

/-- The reply that the connection has yet to write. -/
def unsent (c : Connection) : Bytes :=
  match c.phase with
  | .answering bytes => bytes
  | _ => []

/-- The connection has answered frames in the order of its bytes `b`, and wrote the replies. -/
structure Tracks (b : Bytes) (answered : List (Frame × Reply)) (c : Connection) : Prop where
  delivers : Delivers c.stream.incoming (Source.pending c.stream.incoming)
  accepts : c.stream.sink.Accepts
  inOrder : Frame.servedIn b = answered.map Prod.fst ++ c.ahead
  written : Stream.encodeAll (answered.map answerFrame) =
    .ok (c.stream.sink.output ++ c.unsent)

/-- A connection that was just opened has answered nothing. -/
theorem tracks_opened {stream : Stream}
    (delivers : Delivers stream.incoming (Source.pending stream.incoming))
    (accepts : stream.sink.Accepts) (fresh : stream.sink.output = []) :
    Tracks (Source.pending stream.incoming) [] { stream } := by
  refine ⟨delivers, accepts, rfl, ?_⟩
  show Except.ok [] = Except.ok (stream.sink.output ++ [])
  rw [fresh, List.append_nil]

variable {b : Bytes} {answered : List (Frame × Reply)} {stream : Stream} {served : Nat}

/-- Reading takes the next frame, or finds that there is none. -/
theorem Tracks.step_reading (h : Tracks b answered ⟨stream, served, .reading⟩) (a : Authority σ)
    (s : σ) : Tracks b answered (step a ⟨stream, served, .reading⟩ s).1 := by
  obtain ⟨delivers, accepts, inOrder, written⟩ := h
  have hahead : ahead ⟨stream, served, .reading⟩ =
      (Frame.framesIn (Source.pending stream.incoming)).takeWhile Frame.isAsking := rfl
  rcases Stream.readFrame_framesIn delivers with
    ⟨f, rest, left, hread, hrest, hframes⟩ | ⟨result, rest, left, hread, hnone, hrest, hframes⟩
  · obtain rfl : Source.pending rest = left := hrest.pending
    rw [hahead, hframes] at inOrder
    simp only [step, hread]
    exact ⟨hrest, accepts, inOrder, written⟩
  · obtain rfl : Source.pending rest = left := hrest.pending
    rw [hahead, hframes] at inOrder
    rcases result with error | - | f
    · simp only [step, hread]
      exact ⟨hrest, accepts, inOrder, written⟩
    · simp only [step, hread]
      exact ⟨hrest, accepts, inOrder, written⟩
    · exact absurd rfl (hnone f)

/-- The frame that was read is answered, or ends the connection. -/
theorem Tracks.step_asking {f : Frame} (h : Tracks b answered ⟨stream, served, .asking f⟩)
    (m : MemoryAuthority) :
    Tracks b
      (answered ++ (answers? MemoryAuthority.authority ⟨stream, served, .asking f⟩ m).toList)
      (step MemoryAuthority.authority ⟨stream, served, .asking f⟩ m).1 := by
  obtain ⟨delivers, accepts, inOrder, written⟩ := h
  have hahead : ahead ⟨stream, served, .asking f⟩ =
      (f :: Frame.framesIn (Source.pending stream.incoming)).takeWhile Frame.isAsking := rfl
  cases hf : f.isAsking with
  | true =>
      obtain ⟨r, m', events, hreply⟩ := reply_of_asking hf m
      obtain ⟨bytes, hbytes, hencode⟩ := exists_replyBytes f r
      rw [hahead, List.takeWhile_cons_of_pos hf] at inOrder
      simp only [step, respond, answers?, hreply, hbytes, Except.toOption, Option.map_some,
        Option.toList_some]
      refine ⟨delivers, accepts, ?_, ?_⟩
      · rw [inOrder, List.map_append, List.append_assoc]
        rfl
      · rw [List.map_append, List.map_singleton, Stream.encodeAll_snoc written hencode]
        show Except.ok (stream.sink.output ++ [] ++ bytes) = .ok (stream.sink.output ++ bytes)
        rw [List.append_nil]
  | false =>
      obtain ⟨error, hreply⟩ := reply_of_not_asking hf MemoryAuthority.authority m
      rw [hahead, List.takeWhile_cons_of_neg (by rw [hf]; decide)] at inOrder
      simp only [step, respond, answers?, hreply, Except.toOption, Option.map_none,
        Option.toList_none, List.append_nil]
      exact ⟨delivers, accepts, inOrder, written⟩

/-- The reply is written as a whole. -/
theorem Tracks.step_answering {bytes : Bytes}
    (h : Tracks b answered ⟨stream, served, .answering bytes⟩) (a : Authority σ) (s : σ) :
    Tracks b answered (step a ⟨stream, served, .answering bytes⟩ s).1 := by
  obtain ⟨delivers, accepts, inOrder, written⟩ := h
  obtain ⟨sink, hsend, haccepts, houtput⟩ := Sink.send_of_accepts accepts bytes
  simp only [step, hsend]
  refine ⟨delivers, haccepts, inOrder, ?_⟩
  rw [written]
  show Except.ok (stream.sink.output ++ bytes) = .ok (sink.output ++ [])
  rw [houtput, List.append_nil]

/-- **A step keeps the connection in order.** -/
theorem Tracks.step {c : Connection} (h : c.Tracks b answered) (m : MemoryAuthority) :
    (c.step MemoryAuthority.authority m).1.Tracks b
      (answered ++ (c.answers? MemoryAuthority.authority m).toList) := by
  rcases c with ⟨stream, served, phase⟩
  cases phase with
  | reading => exact (List.append_nil answered).symm ▸ h.step_reading _ m
  | asking f => exact h.step_asking m
  | answering bytes => exact (List.append_nil answered).symm ▸ h.step_answering _ m
  | closed result => exact (List.append_nil answered).symm ▸ h

/-! #### What a step does to the authority -/

/-- What became of the authority and what was answered, seen by everybody. -/
inductive Effect (a : Authority σ) (s : σ) : Option (Frame × Reply) → σ → Prop where
  | none : Effect a s none s
  | asked {frame : Frame} {request r s' events} (decoded : frame.request? = some request)
      (answer : a.answer request s = ⟨.ok r, s', events⟩) : Effect a s (some (frame, r)) s'
  | refused {frame : Frame} (undecoded : frame.request? = none) :
      Effect a s (some (frame, frame.refusal)) s

/-- **A step asks the authority at most once**, and otherwise leaves it alone. -/
theorem effect_step (c : Connection) (m : MemoryAuthority) :
    Effect MemoryAuthority.authority m (c.answers? MemoryAuthority.authority m)
      (c.step MemoryAuthority.authority m).2 := by
  rcases c with ⟨stream, served, phase⟩
  cases phase with
  | reading =>
      rcases hread : Stream.readFrame stream.incoming with ⟨error | - | f, rest⟩ <;>
        simp only [step, answers?, hread, Effect.none]
  | answering bytes =>
      rcases hsend : stream.sink.send bytes with ⟨error | done, sink⟩ <;>
        simp only [step, answers?, hsend, Effect.none]
  | closed result => exact .none
  | asking f =>
      have hr := answering_reply MemoryAuthority.authority f m
      generalize hreply : reply MemoryAuthority.authority f m = outcome at hr
      cases hr with
      | @asked request decoded =>
          obtain ⟨r, hok, -⟩ := MemoryAuthority.answers request m
          rcases ha : MemoryAuthority.authority.answer request m with ⟨result, m', events⟩
          rw [ha] at hok hreply
          obtain rfl : result = .ok r := hok
          obtain ⟨bytes, hbytes, -⟩ := exists_replyBytes f r
          simp only [step, respond, answers?, hreply, hbytes, Except.toOption, Option.map_some]
          exact .asked decoded ha
      | refused asking undecoded =>
          obtain ⟨bytes, hbytes, -⟩ := exists_replyBytes f f.refusal
          simp only [step, respond, answers?, hreply, hbytes, Except.toOption, Option.map_some]
          exact .refused undecoded
      | closing =>
          simp only [step, respond, answers?, hreply, Except.toOption, Option.map_none]
          exact .none

end Connection

end Server

end SharedSync
