import SharedSync.Errors.SyncError
import SharedSync.Wire.Frame
import SharedSync.Words

/-!
# Streams — reading, writing, and frames

A connection delivers bytes in whatever pieces it likes and may fail in between, in either
direction.  Frames are read and written whole.
-/

namespace SharedSync

/-! ### Reading

What a stream will deliver is a list of arrivals: a chunk of bytes, or a read that fails.  One
read takes bytes from the first chunk only; behind the last arrival the stream has ended.
`take` repeats reads until it has the bytes it wants, the stream ends, or a read fails other than
by an interruption.

* `unread_take`: the bytes taken and the bytes left are the bytes there were.
* `length_take_full`: a take that ends full has just the bytes it wanted. -/

/-- What one read meets: bytes, or a failure. -/
inductive Arrival where
  | chunk (bytes : Bytes)
  | failure (kind : FailureKind)
deriving DecidableEq

namespace Source

/-- The bytes in `arrivals`, read or not, whatever fails in between. -/
def pending (arrivals : List Arrival) : Bytes :=
  arrivals.flatMap fun
    | .chunk bytes => bytes
    | .failure _ => []

/-- The number of bytes not yet read. -/
def unread : List Arrival → Nat
  | [] => 0
  | .chunk bytes :: arrivals => bytes.length + unread arrivals
  | .failure _ :: arrivals => unread arrivals

/-- Arrivals without the empty chunks, which no read sees. -/
def ofArrivals (arrivals : List Arrival) : List Arrival :=
  arrivals.filter fun
    | .chunk bytes => !bytes.isEmpty
    | .failure _ => true

/-- How a series of reads ends. -/
inductive Stop where
  | full
  | ended
  | failed (kind : FailureKind)
deriving DecidableEq

/-- What a series of reads got, how it ended, and what is still to arrive. -/
structure Taken where
  bytes : Bytes
  stop : Stop
  rest : List Arrival

/-- Reads until there are `want` bytes. -/
def take : (want : Nat) → List Arrival → Taken
  | 0, arrivals => ⟨[], .full, arrivals⟩
  | _ + 1, [] => ⟨[], .ended, []⟩
  | want + 1, .failure kind :: arrivals =>
      if kind = .interrupted then take (want + 1) arrivals
      else ⟨[], .failed kind, arrivals⟩
  | want + 1, .chunk bytes :: arrivals =>
      if (bytes.drop (want + 1)).isEmpty then
        let tail := take (want + 1 - (bytes.take (want + 1)).length) arrivals
        { tail with bytes := bytes.take (want + 1) ++ tail.bytes }
      else ⟨bytes.take (want + 1), .full, .chunk (bytes.drop (want + 1)) :: arrivals⟩

/-- The bytes taken and the bytes left are the bytes there were. -/
theorem unread_take (want : Nat) (arrivals : List Arrival) :
    (take want arrivals).bytes.length + unread (take want arrivals).rest = unread arrivals := by
  induction arrivals generalizing want with
  | nil => cases want <;> simp [take, unread]
  | cons a arrivals ih =>
      cases want with
      | zero => simp [take]
      | succ want =>
          cases a with
          | failure kind =>
              rw [take]
              split
              · simpa [unread] using ih (want + 1)
              · simp [unread]
          | chunk bytes =>
              have hsplit := congrArg List.length (List.take_append_drop (want + 1) bytes)
              rw [List.length_append] at hsplit
              rw [take]
              split
              · next h =>
                  have htail := ih (want + 1 - (bytes.take (want + 1)).length)
                  rw [List.isEmpty_iff.mp h] at hsplit
                  simp only [unread, List.length_append, List.length_nil] at htail hsplit ⊢
                  omega
              · simp only [unread]
                omega

/-- A take that ends full has just the bytes it wanted. -/
theorem length_take_full {want : Nat} {arrivals : List Arrival}
    (h : (take want arrivals).stop = .full) : (take want arrivals).bytes.length = want := by
  induction arrivals generalizing want with
  | nil => cases want <;> simp_all [take]
  | cons a arrivals ih =>
      cases want with
      | zero => simp [take]
      | succ want =>
          cases a with
          | failure kind =>
              rw [take] at h ⊢
              split at h
              · next hk => rw [if_pos hk]; exact ih h
              · cases h
          | chunk bytes =>
              have hlen := List.length_take_le (want + 1) bytes
              rw [take] at h ⊢
              split at h
              · next hd =>
                  rw [if_pos hd]
                  simp only [List.length_append, ih h]
                  omega
              · next hd =>
                  rw [if_neg hd, List.length_take]
                  have hgt : ¬ bytes.length ≤ want + 1 := fun hle =>
                    hd (List.isEmpty_iff.mpr (List.drop_eq_nil_of_le hle))
                  omega

end Source

/-! ### Writing

How a stream takes bytes depends on how many it took before: `respond n` says what a write meets
once `n` bytes are taken.  It takes at most some number of bytes, or everything, or fails.
`writeAll` repeats writes until all is taken; a write that takes nothing ends it, and so does a
failure.  (An interrupted write would be repeated; here it would be interrupted again for ever, so
it counts as a failure.)  What was taken stays taken. -/

/-- What one write meets. -/
inductive WriteResponse where
  | all
  | atMost (count : Nat)
  | fails (kind : FailureKind)
deriving DecidableEq

/-- The writing side of a stream. -/
structure Sink where
  respond : Nat → WriteResponse := fun _ => .all
  /-- What every flush fails with, if it fails. -/
  flushFailure : Option FailureKind := none
  /-- The number of bytes taken. -/
  taken : Nat := 0
  /-- The bytes taken, in pieces, the last piece first. -/
  pieces : List Bytes := []

namespace Sink

/-- The bytes taken, in order. -/
def output (s : Sink) : Bytes := s.pieces.reverse.flatten

/-- How many of `count` bytes are left untaken once `taken` are, and what stopped them. -/
def push (respond : Nat → WriteResponse) (taken count : Nat) : Nat × Option SystemError :=
  if count = 0 then (0, none)
  else
    match respond taken with
    | .all => (0, none)
    | .fails kind => (count, some (.plain kind))
    | .atMost n =>
        if _h : n = 0 then (count, some .tookNothing)
        else push respond (taken + min n count) (count - min n count)
termination_by count
decreasing_by omega

/-- Writes until all is taken or a write fails. -/
def writeAll (s : Sink) (bytes : Bytes) : Except SystemError Unit × Sink :=
  let (left, stop) := push s.respond s.taken bytes.length
  let piece := bytes.take (bytes.length - left)
  let after := { s with taken := s.taken + piece.length, pieces := piece :: s.pieces }
  match stop with
  | none => (.ok (), after)
  | some error => (.error error, after)

/-- Hands on what was taken; nothing is lost if that fails. -/
def flush (s : Sink) : Except SystemError Unit :=
  match s.flushFailure with
  | none => .ok ()
  | some kind => .error (.plain kind)

/-- Takes all of `bytes`, then flushes. -/
def send (s : Sink) (bytes : Bytes) : Except SystemError Unit × Sink :=
  match s.writeAll bytes with
  | (.error error, s) => (.error error, s)
  | (.ok (), s) => (s.flush, s)

/-- A sink that takes at most `piece` bytes per write, and fails once `bound` are taken: with
`failure`, or by taking nothing. -/
def limited (piece bound : Option Nat) (failure : Option FailureKind) (taken : Nat) :
    WriteResponse :=
  match bound, piece with
  | none, none => .all
  | none, some piece => .atMost piece
  | some bound, piece =>
      if bound ≤ taken then (failure.map .fails).getD (.atMost 0)
      else .atMost (min (piece.getD (bound - taken)) (bound - taken))

end Sink

/-! ### Frames on a stream

A `Stream` has a reading and a writing side.  `readFrame` reads the length field, checks it, and
reads as many bytes behind it.  A stream that ends in front of a length field has ended cleanly;
one that ends anywhere else has not.  A read that fails loses the bytes read before it in the
same frame.

* `unread_readFrame`: a frame that was read took its bytes off the stream, at least sixteen. -/

/-- The two sides of a connection, each for itself. -/
structure Stream where
  incoming : List Arrival := []
  sink : Sink := {}

namespace Stream

/-- Reads `want` bytes, of which at least one must come. -/
def readExact (want : Nat) (arrivals : List Arrival) :
    Except SyncError Bytes × List Arrival :=
  let taken := Source.take want arrivals
  match taken.stop with
  | .full => (.ok taken.bytes, taken.rest)
  | .ended => (.error (.system .endedEarly), taken.rest)
  | .failed kind => (.error (.system (.plain kind)), taken.rest)

/-- The bytes of the length field, or nothing if the stream has ended in front of it. -/
def readLength (arrivals : List Arrival) : Except SyncError (Option Bytes) × List Arrival :=
  let taken := Source.take 4 arrivals
  match taken.stop with
  | .full => (.ok (some taken.bytes), taken.rest)
  | .ended =>
      if taken.bytes.isEmpty then (.ok none, taken.rest)
      else (.error (.system (.plain .unexpectedEnd)), taken.rest)
  | .failed kind => (.error (.system (.plain kind)), taken.rest)

/-- The next frame, or nothing at the end of the stream. -/
def readFrame (arrivals : List Arrival) : Except SyncError (Option Frame) × List Arrival :=
  match readLength arrivals with
  | (.error error, rest) => (.error error, rest)
  | (.ok none, rest) => (.ok none, rest)
  | (.ok (some front), rest) =>
      match Frame.checkLength (Frame.lengthField front) with
      | .error error => (.error (.ofFrameError error), rest)
      | .ok () =>
          match readExact (Frame.lengthField front).toNat rest with
          | (.error error, rest) => (.error error, rest)
          | (.ok body, rest) =>
              match Frame.decode (front ++ body) with
              | .error error => (.error (.ofFrameError error), rest)
              | .ok frame => (.ok (some frame), rest)

/-- A length field takes four bytes off the stream. -/
theorem unread_readLength {arrivals rest : List Arrival} {front : Bytes}
    (h : readLength arrivals = (.ok (some front), rest)) :
    Source.unread rest + 4 = Source.unread arrivals := by
  have hu := Source.unread_take 4 arrivals
  simp only [readLength] at h
  split at h
  · next hs =>
      cases h
      rw [Source.length_take_full hs] at hu
      omega
  · split at h <;> cases h
  · cases h

/-- What was read took its bytes off the stream. -/
theorem unread_readExact {want : Nat} {arrivals rest : List Arrival} {body : Bytes}
    (h : readExact want arrivals = (.ok body, rest)) :
    Source.unread rest + want = Source.unread arrivals := by
  have hu := Source.unread_take want arrivals
  simp only [readExact] at h
  split at h
  · next hs =>
      cases h
      rw [Source.length_take_full hs] at hu
      omega
  · cases h
  · cases h

/-- A length that passes the check admits a header. -/
theorem frameMin_le_of_checkLength {n : UInt32} (h : Frame.checkLength n = .ok ()) :
    Limits.frameMin ≤ n.toNat := by
  unfold Frame.checkLength at h
  split at h
  · cases h
  · omega

/-- A frame that was read took its bytes off the stream, at least sixteen. -/
theorem unread_readFrame {arrivals rest : List Arrival} {frame : Frame}
    (h : readFrame arrivals = (.ok (some frame), rest)) :
    Source.unread rest + Limits.frameHeaderBytes ≤ Source.unread arrivals := by
  unfold readFrame at h
  split at h
  · cases h
  · cases h
  · next front mid hl =>
      have h₁ := unread_readLength hl
      split at h
      · cases h
      · next hc =>
          have h₂ := frameMin_le_of_checkLength hc
          split at h
          · cases h
          · next body last hb =>
              have h₃ := unread_readExact hb
              split at h
              · cases h
              · cases h
                simp only [Limits.frameMin, Limits.frameHeaderBytes] at h₂ ⊢
                omega

end Stream

end SharedSync
