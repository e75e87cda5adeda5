import SharedSync.Proofs.Wire.RoundTrip
import SharedSync.Stream

/-!
# Streams — bytes arrive in any pieces

`Delivers arrivals bytes` says that the bytes come, in pieces of any size, and that reads fail only
by interruptions.  What is read then depends on the bytes alone.  `Accepts s` says the same of a
sink: writes may be short, but none fails.

* `Source.take_of_delivers`: a take gets the front of what is delivered.
* `Sink.send_of_takes`, `Sink.send_of_accepts`: a send adds all its bytes to the output.
* `Stream.readFrame_of_delivers`: the frame in front is read, and the rest is still delivered.
-/

namespace SharedSync

/-! ### Reading -/

namespace Source

/-- All bytes arrive, and reads fail only by interruptions. -/
structure Delivers (arrivals : List Arrival) (bytes : Bytes) : Prop where
  pending : pending arrivals = bytes
  interrupted : ∀ kind : FailureKind, .failure kind ∈ arrivals → kind = .interrupted

variable {a : Arrival} {arrivals : List Arrival} {bytes front tail chunk : Bytes}

theorem delivers_nil : Delivers [] [] := ⟨rfl, nofun⟩

theorem delivers_chunk (bytes : Bytes) : Delivers [.chunk bytes] bytes := by
  refine ⟨List.append_nil _, ?_⟩
  intro kind h
  cases List.mem_singleton.mp h

theorem Delivers.of_failure {kind : FailureKind} (h : Delivers (.failure kind :: arrivals) bytes) :
    kind = .interrupted ∧ Delivers arrivals bytes :=
  ⟨h.interrupted kind (List.mem_cons_self ..), h.pending,
    fun k hk => h.interrupted k (List.mem_cons_of_mem _ hk)⟩

theorem Delivers.of_chunk (h : Delivers (.chunk chunk :: arrivals) bytes) :
    chunk ++ Source.pending arrivals = bytes ∧ Delivers arrivals (Source.pending arrivals) :=
  ⟨h.pending, rfl, fun k hk => h.interrupted k (List.mem_cons_of_mem _ hk)⟩

theorem Delivers.cons_chunk (h : Delivers arrivals bytes) (chunk : Bytes) :
    Delivers (.chunk chunk :: arrivals) (chunk ++ bytes) := by
  refine ⟨congrArg (chunk ++ ·) h.pending, ?_⟩
  intro k hk
  rcases List.mem_cons.mp hk with he | hk
  · cases he
  · exact h.interrupted k hk

/-- A chunk that is not too long is taken as a whole. -/
theorem take_chunk_of_le {want : Nat} (h : chunk.length ≤ want + 1) :
    take (want + 1) (.chunk chunk :: arrivals) =
      { take (want + 1 - chunk.length) arrivals with
        bytes := chunk ++ (take (want + 1 - chunk.length) arrivals).bytes } := by
  rw [take, if_pos (List.isEmpty_iff.mpr (List.drop_eq_nil_of_le h)), List.take_of_length_le h]

/-- Of a longer chunk, the rest stays. -/
theorem take_chunk_of_lt {want : Nat} (h : want + 1 < chunk.length) :
    take (want + 1) (.chunk chunk :: arrivals) =
      ⟨chunk.take (want + 1), .full, .chunk (chunk.drop (want + 1)) :: arrivals⟩ := by
  rw [take, if_neg]
  rw [List.isEmpty_iff, List.drop_eq_nil_iff]
  exact Nat.not_le.mpr h

/-- **A take gets the front of what is delivered**, in whatever pieces it comes. -/
theorem take_of_delivers (h : Delivers arrivals (front ++ tail)) :
    ∃ rest, take front.length arrivals = ⟨front, .full, rest⟩ ∧ Delivers rest tail := by
  induction arrivals generalizing front with
  | nil =>
      obtain ⟨rfl, rfl⟩ := List.append_eq_nil_iff.mp h.pending.symm
      exact ⟨[], rfl, delivers_nil⟩
  | cons a arrivals ih =>
      rcases hfront : front with - | ⟨b, bs⟩
      · subst hfront
        exact ⟨a :: arrivals, rfl, h⟩
      · have hlen : bs.length + 1 = front.length := by rw [hfront, List.length_cons]
        rw [List.length_cons, ← hfront]
        cases a with
        | failure kind =>
            obtain ⟨rfl, h'⟩ := h.of_failure
            rw [take, if_pos rfl, hlen]
            exact ih h'
        | chunk chunk =>
            obtain ⟨hsplit, h'⟩ := h.of_chunk
            rcases Nat.lt_or_ge front.length chunk.length with hlt | hle
            -- the chunk reaches beyond the front: its rest comes before the other arrivals
            · have htake := congrArg (List.take front.length) hsplit
              have hdrop := congrArg (List.drop front.length) hsplit
              rw [List.take_append_of_le_length (Nat.le_of_lt hlt), List.take_left] at htake
              rw [List.drop_append_of_le_length (Nat.le_of_lt hlt), List.drop_left] at hdrop
              refine ⟨.chunk (chunk.drop front.length) :: arrivals, ?_, ?_⟩
              · rw [take_chunk_of_lt (hlen ▸ hlt), hlen, htake]
              · rw [← hdrop]
                exact h'.cons_chunk _
            -- the chunk is a part of the front: the rest of the front is in later arrivals
            · have htake := congrArg (List.take chunk.length) hsplit
              have hdrop := congrArg (List.drop chunk.length) hsplit
              rw [List.take_left, List.take_append_of_le_length hle] at htake
              rw [List.drop_left, List.drop_append_of_le_length hle] at hdrop
              obtain ⟨rest, ht, hr⟩ := ih (hdrop ▸ h')
              rw [List.length_drop] at ht
              refine ⟨rest, ?_, hr⟩
              have hwhole : chunk ++ front.drop chunk.length = front :=
                calc chunk ++ front.drop chunk.length
                    = front.take chunk.length ++ front.drop chunk.length :=
                      congrArg (· ++ front.drop chunk.length) htake
                  _ = front := List.take_append_drop _ _
              rw [take_chunk_of_le (hlen ▸ hle), hlen, ht]
              simp only [hwhole]

/-- At the end of what is delivered, the stream ends. -/
theorem take_of_delivers_nil (h : Delivers arrivals []) (want : Nat) :
    take (want + 1) arrivals = ⟨[], .ended, []⟩ := by
  induction arrivals with
  | nil => rfl
  | cons a arrivals ih =>
      cases a with
      | failure kind =>
          obtain ⟨rfl, h'⟩ := h.of_failure
          rw [take, if_pos rfl, ih h']
      | chunk chunk =>
          obtain ⟨hsplit, h'⟩ := h.of_chunk
          obtain ⟨rfl, hrest⟩ := List.append_eq_nil_iff.mp hsplit
          rw [hrest] at h'
          rw [take_chunk_of_le (Nat.zero_le _), List.length_nil, Nat.sub_zero, ih h']
          rfl

end Source

/-! ### Writing -/

namespace Sink

/-- No write and no flush fails. -/
structure Accepts (s : Sink) : Prop where
  takes : ∀ n, s.respond n = .all ∨ ∃ count, s.respond n = .atMost (count + 1)
  flushes : s.flushFailure = none

variable {s : Sink}

/-- A sink that always takes something takes all. -/
theorem push_of_takes {respond : Nat → WriteResponse}
    (h : ∀ n, respond n = .all ∨ ∃ count, respond n = .atMost (count + 1)) (taken count : Nat) :
    push respond taken count = (0, none) := by
  induction count using Nat.strongRecOn generalizing taken with
  | ind count ih =>
      rw [push]
      by_cases hc : count = 0
      · rw [if_pos hc]
      · rw [if_neg hc]
        rcases h taken with ha | ⟨n, hn⟩
        · rw [ha]
        · rw [hn]
          -- a short write takes at least one byte, so that less is left
          simp only [Nat.succ_ne_zero, dite_false]
          exact ih _ (by omega) _

/-- What is written comes behind what was written, also if the write fails. -/
theorem output_writeAll (s : Sink) (bytes : Bytes) :
    ∃ more, (s.writeAll bytes).2.output = s.output ++ more := by
  unfold writeAll
  rcases hp : push s.respond s.taken bytes.length with ⟨left, stop⟩
  refine ⟨bytes.take (bytes.length - left), ?_⟩
  cases stop <;>
    simp only [output, List.reverse_cons, List.flatten_append, List.flatten_cons,
      List.flatten_nil, List.append_nil]

/-- What was taken stays taken. -/
theorem output_send (s : Sink) (bytes : Bytes) :
    ∃ more, (s.send bytes).2.output = s.output ++ more := by
  obtain ⟨more, h⟩ := output_writeAll s bytes
  refine ⟨more, ?_⟩
  unfold send
  rcases hw : s.writeAll bytes with ⟨result, s'⟩
  rw [hw] at h
  cases result <;> exact h

/-- No write fails; a flush may. -/
def Takes (s : Sink) : Prop :=
  ∀ n, s.respond n = .all ∨ ∃ count, s.respond n = .atMost (count + 1)

/-- The sink with all of `bytes` taken. -/
def taking (s : Sink) (bytes : Bytes) : Sink :=
  { s with taken := s.taken + bytes.length, pieces := bytes :: s.pieces }

theorem output_taking (s : Sink) (bytes : Bytes) : (s.taking bytes).output = s.output ++ bytes := by
  simp only [taking, output, List.reverse_cons, List.flatten_append, List.flatten_cons,
    List.flatten_nil, List.append_nil]

/-- **A send adds all its bytes to the output**, and then can only fail to flush. -/
theorem send_of_takes (h : s.Takes) (bytes : Bytes) :
    s.send bytes = (s.flush, s.taking bytes) := by
  have hw : s.writeAll bytes = (.ok (), s.taking bytes) := by
    simp only [writeAll, push_of_takes h, Nat.sub_zero, List.take_length, taking]
  simp only [send, hw]
  rfl

theorem send_of_accepts (h : s.Accepts) (bytes : Bytes) :
    ∃ s', s.send bytes = (.ok (), s') ∧ s'.Accepts ∧ s'.output = s.output ++ bytes := by
  refine ⟨s.taking bytes, ?_, ⟨h.takes, h.flushes⟩, output_taking s bytes⟩
  rw [send_of_takes h.takes, flush, h.flushes]

end Sink

/-! ### Frames -/

namespace Stream

open Source (Delivers)

variable {arrivals : List Arrival} {f : Frame} {bytes tail : Bytes}

/-- **The frame in front is read**, and the rest is still delivered. -/
theorem readFrame_of_delivers (hf : f.encode = .ok bytes)
    (h : Delivers arrivals (bytes ++ tail)) :
    ∃ rest, readFrame arrivals = (.ok (some f), rest) ∧ Delivers rest tail := by
  have hdecode := Frame.decode_encode hf
  obtain ⟨n, rfl, hn, hcheck⟩ := Frame.encode_eq_ok hf
  rw [List.append_assoc] at h
  obtain ⟨mid, h₁, hmid⟩ := Source.take_of_delivers h
  obtain ⟨rest, h₂, hrest⟩ := Source.take_of_delivers hmid
  rw [Words.length_be32] at h₁
  have hfield : Frame.lengthField (Words.be32 n) = n := by
    have := Frame.lengthField_be32 n []
    rwa [List.append_nil] at this
  refine ⟨rest, ?_, hrest⟩
  simp only [readFrame, readLength, readExact, h₁, hfield, hcheck, ← hn, h₂, hdecode]

/-- At the end of what is delivered there is no frame. -/
theorem readFrame_of_delivers_nil (h : Delivers arrivals []) :
    readFrame arrivals = (.ok none, []) := by
  simp only [readFrame, readLength, Source.take_of_delivers_nil h 3, List.isEmpty_nil, if_true]

end Stream

end SharedSync
