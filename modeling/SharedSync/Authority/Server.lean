import SharedSync.Authority
import SharedSync.Stream

/-!
# Authority — served over a stream

The serving side of a connection reads request frames and answers each with one reply frame of
the same request number.  A payload that is no request is answered for the authority: a create
request with invalid parameters, a query of an invalid handle.  The connection ends at the clean
end of the stream; anything that is no request frame, and any failure, ends it with an error.

* `serve` ends because each frame takes at least sixteen bytes off the stream.
-/

namespace SharedSync.Server

variable {σ : Type}

/-- The reply to a frame. -/
def reply (a : Authority σ) (frame : Frame) (s : σ) : Outcome σ (Except SyncError Reply) :=
  match frame.kind with
  | .createObject =>
      match CreateRequest.decode? frame.payload with
      | some request => a.create request s
      | none => ⟨.ok (.bare .invalidParameter), s, [.malformedCreate frame.request]⟩
  | .queryObject =>
      match Query.decode? frame.payload with
      | some handle => a.query handle s
      | none => ⟨.ok (.bare .invalidHandle), s, []⟩
  | .reply => ⟨.error (.protocol .replyFromClient), s, []⟩

/-- The bytes of the frame that answers a request. -/
def replyBytes (request : UInt64) (reply : Reply) : Except SyncError Bytes :=
  match Frame.encode { kind := .reply, request, payload := reply.encode } with
  | .error error => .error (.ofFrameError error)
  | .ok bytes => .ok bytes

/-- The bytes that answer a frame. -/
def respond (a : Authority σ) (frame : Frame) (s : σ) : Outcome σ (Except SyncError Bytes) :=
  match reply a frame s with
  | ⟨.error error, s, events⟩ => ⟨.error error, s, events⟩
  | ⟨.ok answer, s, events⟩ => ⟨replyBytes frame.request answer, s, events⟩

/-- Serves from a point at which `served` requests are answered; `past` are the events so far,
the last one first. -/
def serveFrom (a : Authority σ) (served : Nat) (past : List Event) (stream : Stream) (s : σ) :
    Outcome (Stream × σ) (Except SyncError Nat) :=
  match _h : Stream.readFrame stream.incoming with
  | (.error error, incoming) => ⟨.error error, ({ stream with incoming }, s), past.reverse⟩
  | (.ok none, incoming) =>
      ⟨.ok served, ({ stream with incoming }, s),
        (Event.connectionClosed served :: past).reverse⟩
  | (.ok (some frame), incoming) =>
      match respond a frame s with
      | ⟨.error error, s, events⟩ =>
          ⟨.error error, ({ stream with incoming }, s), past.reverse ++ events⟩
      | ⟨.ok bytes, s, events⟩ =>
          match stream.sink.send bytes with
          | (.error error, sink) =>
              ⟨.error (.system error), (⟨incoming, sink⟩, s), past.reverse ++ events⟩
          | (.ok (), sink) =>
              serveFrom a (served + 1) (events.reverse ++ past) ⟨incoming, sink⟩ s
termination_by Source.unread stream.incoming
decreasing_by
  have := Stream.unread_readFrame _h
  simp only [Limits.frameHeaderBytes] at this
  omega

section Round

variable {a : Authority σ} {served : Nat} {past : List Event} {stream : Stream} {s : σ}
  {incoming : List Arrival}

/-- A read that fails ends the connection with its error. -/
theorem serveFrom_of_error {error : SyncError}
    (h : Stream.readFrame stream.incoming = (.error error, incoming)) :
    serveFrom a served past stream s = ⟨.error error, ({ stream with incoming }, s), past.reverse⟩ := by
  rw [serveFrom]
  split
  · next hr => rw [h] at hr; cases hr; rfl
  · next hr => rw [h] at hr; cases hr
  · next hr => rw [h] at hr; cases hr

/-- The clean end of the stream ends the connection with the count. -/
theorem serveFrom_of_end (h : Stream.readFrame stream.incoming = (.ok none, incoming)) :
    serveFrom a served past stream s = ⟨.ok served, ({ stream with incoming }, s),
      (Event.connectionClosed served :: past).reverse⟩ := by
  rw [serveFrom]
  split
  · next hr => rw [h] at hr; cases hr
  · next hr => rw [h] at hr; cases hr; rfl
  · next hr => rw [h] at hr; cases hr

/-- A frame is answered, and the connection goes on unless that fails. -/
theorem serveFrom_of_frame {frame : Frame}
    (h : Stream.readFrame stream.incoming = (.ok (some frame), incoming)) :
    serveFrom a served past stream s =
      match respond a frame s with
      | ⟨.error error, s, events⟩ =>
          ⟨.error error, ({ stream with incoming }, s), past.reverse ++ events⟩
      | ⟨.ok bytes, s, events⟩ =>
          match stream.sink.send bytes with
          | (.error error, sink) =>
              ⟨.error (.system error), (⟨incoming, sink⟩, s), past.reverse ++ events⟩
          | (.ok (), sink) =>
              serveFrom a (served + 1) (events.reverse ++ past) ⟨incoming, sink⟩ s := by
  rw [serveFrom]
  split
  · next hr => rw [h] at hr; cases hr
  · next hr => rw [h] at hr; cases hr
  · next hr => rw [h] at hr; cases hr; rfl

end Round

/-- The number of requests answered until the stream ended. -/
def serve (a : Authority σ) (stream : Stream) (s : σ) :
    Outcome (Stream × σ) (Except SyncError Nat) :=
  serveFrom a 0 [] stream s

end SharedSync.Server
