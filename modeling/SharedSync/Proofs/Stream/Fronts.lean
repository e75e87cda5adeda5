import SharedSync.Proofs.Stream.Delivery
import SharedSync.Proofs.Wire.Fronts

/-!
# Streams — reading a frame is decoding a buffer

A stream that delivers the bytes `b`, in whatever pieces and with whatever interruptions, and then
ends, gives what the front of the buffer `b` holds (`readBuffer b`).  `Front b` lists what that can
be, with the number of bytes that are taken for it.

* `readFrame_eq_readBuffer`: reading from a stream is reading from the buffer it delivers.
* `front_readBuffer`: what is read from a buffer is its front.
* `readMany_eq`: frames that were written one behind the other are read back in order.
* `readFrame_front`: the three together.
-/

namespace SharedSync

namespace Source

variable {arrivals : List Arrival} {bytes : Bytes}

/-- The bytes not yet read are those that are pending. -/
theorem unread_eq_length (arrivals : List Arrival) :
    unread arrivals = (pending arrivals).length := by
  induction arrivals with
  | nil => rfl
  | cons a arrivals ih =>
      cases a with
      | chunk chunk =>
          show chunk.length + unread arrivals = (chunk ++ pending arrivals).length
          rw [List.length_append, ih]
      | failure kind => exact ih

theorem Delivers.unread_eq (h : Delivers arrivals bytes) : unread arrivals = bytes.length := by
  rw [unread_eq_length, h.pending]

/-- A take that asks for more than is delivered gets all of it, and then meets the end. -/
theorem take_of_delivers_short (h : Delivers arrivals bytes) {want : Nat}
    (hw : bytes.length < want) : take want arrivals = ⟨bytes, .ended, []⟩ := by
  obtain ⟨want, rfl⟩ := Nat.exists_eq_add_one_of_ne_zero (Nat.ne_zero_of_lt hw)
  induction arrivals generalizing bytes want with
  | nil =>
      obtain rfl : [] = bytes := h.pending
      rfl
  | cons a arrivals ih =>
      cases a with
      | failure kind =>
          obtain ⟨rfl, h'⟩ := h.of_failure
          rw [take, if_pos rfl, ih h' want hw]
      | chunk chunk =>
          obtain ⟨rfl, h'⟩ := h.of_chunk
          rw [List.length_append] at hw
          obtain ⟨left, hleft⟩ : ∃ left, want + 1 - chunk.length = left + 1 :=
            ⟨want - chunk.length, by omega⟩
          rw [take_chunk_of_le (by omega), hleft, ih h' left (by omega)]

end Source

namespace Stream

open Source (Delivers)
open SharedSync.Frame (Announces Whole span lengthField checkLength decode)

variable {arrivals : List Arrival} {b : Bytes}

/-! ### The front of a buffer -/

/-- A frame that was decoded, or why there is none, as a stream reports it. -/
def ofDecoded : Except FrameError Frame → Except SyncError (Option Frame)
  | .ok frame => .ok (some frame)
  | .error error => .error (.ofFrameError error)

/-- What is read from a buffer, and the number of bytes that are taken for it. -/
def readBuffer (b : Bytes) : Except SyncError (Option Frame) × Nat :=
  if b = [] then (.ok none, 0)
  else if b.length < 4 then (.error (.system (.plain .unexpectedEnd)), b.length)
  else
    match checkLength (lengthField b) with
    | .error error => (.error (.ofFrameError error), 4)
    | .ok () =>
        if b.length < span b then (.error (.system .endedEarly), b.length)
        else (ofDecoded (decode b), span b)

/-- The front of a buffer: what it gives to a reader, and the number of bytes it takes. -/
inductive Front (b : Bytes) : Except SyncError (Option Frame) → Nat → Prop where
  | empty (nothing : b = []) : Front b (.ok none) 0
  | cutLength (something : b ≠ []) (cut : b.length < 4) :
      Front b (.error (.system (.plain .unexpectedEnd))) b.length
  | tooSmall (field : 4 ≤ b.length) (small : (lengthField b).toNat < Limits.frameMin) :
      Front b (.error (.ofFrameError (.lengthTooSmall (lengthField b)))) 4
  | tooLarge (field : 4 ≤ b.length) (large : Limits.frameMax < (lengthField b).toNat) :
      Front b (.error (.ofFrameError (.lengthTooLarge (lengthField b)))) 4
  | cutBody (announces : Announces b) (cut : b.length < span b) :
      Front b (.error (.system .endedEarly)) b.length
  | unknownVersion {v} (whole : Whole b) (refused : decode b = .error (.unknownVersion v)) :
      Front b (.error (.ofFrameError (.unknownVersion v))) (span b)
  | unknownKind {k} (whole : Whole b) (refused : decode b = .error (.unknownKind k)) :
      Front b (.error (.ofFrameError (.unknownKind k))) (span b)
  | frame {found} (whole : Whole b) (decoded : decode b = .ok found) :
      Front b (.ok (some found)) (span b)

/-! #### The ways in which `readBuffer` goes -/

theorem readBuffer_nil : readBuffer [] = (.ok none, 0) := rfl

theorem readBuffer_short (hb : b ≠ []) (h : b.length < 4) :
    readBuffer b = (.error (.system (.plain .unexpectedEnd)), b.length) := by
  rw [readBuffer, if_neg hb, if_pos h]

theorem readBuffer_of_field (h : 4 ≤ b.length) : readBuffer b =
    match checkLength (lengthField b) with
    | .error error => (.error (.ofFrameError error), 4)
    | .ok () =>
        if b.length < span b then (.error (.system .endedEarly), b.length)
        else (ofDecoded (decode b), span b) := by
  have hb : b ≠ [] := fun hb => by rw [hb] at h; exact absurd h (by decide)
  rw [readBuffer, if_neg hb, if_neg (Nat.not_lt.mpr h)]

/-- A length out of range costs its own four bytes. -/
theorem readBuffer_refused {e : FrameError} (h : 4 ≤ b.length)
    (hc : checkLength (lengthField b) = .error e) :
    readBuffer b = (.error (.ofFrameError e), 4) := by
  rw [readBuffer_of_field h, hc]

/-- A frame that is cut off costs all that is there. -/
theorem readBuffer_cut (h : Announces b) (hcut : b.length < span b) :
    readBuffer b = (.error (.system .endedEarly), b.length) := by
  rw [readBuffer_of_field h.field, h.range]
  exact if_pos hcut

/-- A whole frame costs just its bytes, also if its header is refused. -/
theorem readBuffer_whole (h : Whole b) : readBuffer b = (ofDecoded (decode b), span b) := by
  rw [readBuffer_of_field h.field, h.range]
  exact if_neg (Nat.not_lt.mpr h.covers)

/-- **What is read from a buffer is its front.** -/
theorem front_readBuffer (b : Bytes) : Front b (readBuffer b).1 (readBuffer b).2 := by
  rcases Nat.lt_or_ge b.length 4 with hshort | hfield
  · by_cases hb : b = []
    · subst hb
      exact .empty rfl
    · rw [readBuffer_short hb hshort]
      exact .cutLength hb hshort
  · cases hc : checkLength (lengthField b) with
    | error e =>
        rw [readBuffer_refused hfield hc]
        rcases Frame.checkLength_eq_error hc with ⟨hsmall, rfl⟩ | ⟨hlarge, rfl⟩
        · exact .tooSmall hfield hsmall
        · exact .tooLarge hfield hlarge
    | ok done =>
        have announces : Announces b := ⟨hfield, hc⟩
        rcases Nat.lt_or_ge b.length (span b) with hcut | hcovers
        · rw [readBuffer_cut announces hcut]
          exact .cutBody announces hcut
        · have whole : Whole b := ⟨announces, hcovers⟩
          rw [readBuffer_whole whole]
          rcases Frame.exists_decode whole with ⟨f, hd⟩ | ⟨v, hd⟩ | ⟨k, hd⟩
          · rw [hd]
            exact .frame whole hd
          · rw [hd]
            exact .unknownVersion whole hd
          · rw [hd]
            exact .unknownKind whole hd

/-- A read takes no more than there is. -/
theorem Front.le_length {result : Except SyncError (Option Frame)} {consumed : Nat}
    (h : Front b result consumed) : consumed ≤ b.length := by
  cases h with
  | empty => exact Nat.zero_le _
  | cutLength => exact Nat.le_refl _
  | tooSmall field => exact field
  | tooLarge field => exact field
  | cutBody => exact Nat.le_refl _
  | unknownVersion whole => exact whole.covers
  | unknownKind whole => exact whole.covers
  | frame whole => exact whole.covers

/-! ### Streams -/

section Field

variable {mid : List Arrival} (field : Source.take 4 arrivals = ⟨b.take 4, .full, mid⟩)
  (delivers : Delivers mid (b.drop 4))

include field delivers

/-- The stream ends within the frame. -/
theorem readFrame_of_cut (announces : Announces b) (cut : b.length < span b) :
    readFrame arrivals = (.error (.system .endedEarly), []) := by
  have hshort : (b.drop 4).length < (lengthField b).toNat := by
    have hfield := announces.field
    rw [List.length_drop]
    rw [span] at cut
    omega
  have hbody := Source.take_of_delivers_short delivers hshort
  have hfront : lengthField (b.take 4) = lengthField b := Frame.lengthField_take (Nat.le_refl 4)
  simp only [readFrame, readLength, field, hfront, announces.range, readExact, hbody]

/-- The stream brings the whole frame. -/
theorem readFrame_of_whole (whole : Whole b) : ∃ rest,
    readFrame arrivals = (ofDecoded (decode b), rest) ∧ Delivers rest (b.drop (span b)) := by
  have hbody : ((b.drop 4).take (lengthField b).toNat).length = (lengthField b).toNat := by
    have hcovers := whole.covers
    rw [span] at hcovers
    rw [List.length_take, List.length_drop]
    omega
  have hparts : Delivers mid
      ((b.drop 4).take (lengthField b).toNat ++ (b.drop 4).drop (lengthField b).toNat) :=
    (List.take_append_drop (lengthField b).toNat (b.drop 4)).symm ▸ delivers
  obtain ⟨rest, hexact, hrest⟩ := Source.take_of_delivers hparts
  rw [hbody] at hexact
  rw [List.drop_drop] at hrest
  have hfront : lengthField (b.take 4) = lengthField b := Frame.lengthField_take (Nat.le_refl 4)
  -- what the two takes got, one behind the other, is the span
  have hspan : b.take 4 ++ (b.drop 4).take (lengthField b).toNat = b.take (span b) :=
    List.take_add.symm
  refine ⟨rest, ?_, hrest⟩
  simp only [readFrame, readLength, field, hfront, whole.range, readExact, hexact, hspan,
    Frame.decode_take whole]
  cases decode b <;> rfl

end Field

/-- **Reading from a stream is reading from the buffer that it delivers.** -/
theorem readFrame_eq_readBuffer (h : Delivers arrivals b) : ∃ rest,
    readFrame arrivals = ((readBuffer b).1, rest) ∧ Delivers rest (b.drop (readBuffer b).2) := by
  rcases Nat.lt_or_ge b.length 4 with hshort | hfield
  · have htake := Source.take_of_delivers_short h hshort
    by_cases hb : b = []
    · subst hb
      refine ⟨[], ?_, Source.delivers_nil⟩
      simp only [readFrame, readLength, htake, List.isEmpty_nil, if_true, readBuffer_nil]
    · have hne : b.isEmpty = false := List.isEmpty_eq_false_iff.mpr hb
      rw [readBuffer_short hb hshort, List.drop_length]
      refine ⟨[], ?_, Source.delivers_nil⟩
      simp only [readFrame, readLength, htake, hne, Bool.false_eq_true, if_false]
  · have hparts : Delivers arrivals (b.take 4 ++ b.drop 4) := (List.take_append_drop 4 b).symm ▸ h
    obtain ⟨mid, htake, hmid⟩ := Source.take_of_delivers hparts
    rw [List.length_take_of_le hfield] at htake
    cases hc : checkLength (lengthField b) with
    | error e =>
        have hfront : lengthField (b.take 4) = lengthField b :=
          Frame.lengthField_take (Nat.le_refl 4)
        rw [readBuffer_refused hfield hc]
        refine ⟨mid, ?_, hmid⟩
        simp only [readFrame, readLength, htake, hfront, hc]
    | ok done =>
        have announces : Announces b := ⟨hfield, hc⟩
        rcases Nat.lt_or_ge b.length (span b) with hcut | hcovers
        · rw [readBuffer_cut announces hcut, List.drop_length]
          exact ⟨[], readFrame_of_cut htake hmid announces hcut, Source.delivers_nil⟩
        · have whole : Whole b := ⟨announces, hcovers⟩
          rw [readBuffer_whole whole]
          exact readFrame_of_whole htake hmid whole

/-- A frame that is read from a stream is the first of its frames; otherwise there is none. -/
theorem readFrame_framesIn (h : Delivers arrivals b) :
    (∃ f rest left, readFrame arrivals = (.ok (some f), rest) ∧ Delivers rest left ∧
      Frame.framesIn b = f :: Frame.framesIn left) ∨
    ∃ result rest left, readFrame arrivals = (result, rest) ∧ (∀ f, result ≠ .ok (some f)) ∧
      Delivers rest left ∧ Frame.framesIn b = [] := by
  obtain ⟨rest, hread, hrest⟩ := readFrame_eq_readBuffer h
  cases hd : decode b with
  | ok f =>
      have hbuffer := readBuffer_whole (Frame.whole_of_decode hd)
      rw [hd] at hbuffer
      rw [hbuffer] at hread hrest
      exact .inl ⟨f, rest, _, hread, hrest, Frame.framesIn_of_ok hd⟩
  | error e =>
      refine .inr ⟨_, rest, _, hread, ?_, hrest, Frame.framesIn_of_error hd⟩
      intro f hf
      have hfront := front_readBuffer b
      generalize (readBuffer b).2 = consumed at hfront
      rw [hf] at hfront
      cases hfront with
      | frame _ decoded => rw [hd] at decoded; cases decoded

/-! ### Frame after frame -/

/-- The results of reading again and again, and what is left to arrive. -/
def readMany : Nat → List Arrival → List (Except SyncError (Option Frame)) × List Arrival
  | 0, arrivals => ([], arrivals)
  | n + 1, arrivals =>
      let first := readFrame arrivals
      let others := readMany n first.2
      (first.1 :: others.1, others.2)

/-- Behind the end every read finds the end. -/
theorem readMany_of_delivers_nil (h : Delivers arrivals []) (n : Nat) :
    readMany (n + 1) arrivals = (List.replicate (n + 1) (.ok none), []) := by
  induction n generalizing arrivals with
  | zero => simp only [readMany, readFrame_of_delivers_nil h, List.replicate]
  | succ n ih =>
      rw [readMany, readFrame_of_delivers_nil h, ih Source.delivers_nil]
      rfl

/-- The bytes of several frames, one behind the other. -/
def encodeAll (frames : List Frame) : Except FrameError Bytes :=
  match frames with
  | [] => .ok []
  | f :: frames => do return (← f.encode) ++ (← encodeAll frames)

theorem encodeAll_cons {f : Frame} {frames : List Frame} (h : encodeAll (f :: frames) = .ok b) :
    ∃ front tail, f.encode = .ok front ∧ encodeAll frames = .ok tail ∧ b = front ++ tail := by
  unfold encodeAll at h
  cases hf : f.encode with
  | error e => rw [hf] at h; cases h
  | ok front =>
      cases ht : encodeAll frames with
      | error e => rw [hf, ht] at h; cases h
      | ok tail =>
          rw [hf, ht] at h
          cases h
          exact ⟨front, tail, rfl, rfl, rfl⟩

theorem encodeAll_of_cons {f : Frame} {frames : List Frame} {front : Bytes}
    (hf : f.encode = .ok front) (h : encodeAll frames = .ok b) :
    encodeAll (f :: frames) = .ok (front ++ b) := by
  rw [encodeAll, hf, h]
  rfl

/-- Two series of frames one behind the other. -/
theorem encodeAll_append {frames others : List Frame} {more : Bytes}
    (h : encodeAll frames = .ok b) (hmore : encodeAll others = .ok more) :
    encodeAll (frames ++ others) = .ok (b ++ more) := by
  induction frames generalizing b with
  | nil =>
      cases h
      exact hmore
  | cons g frames ih =>
      obtain ⟨front, tail, hg, ht, rfl⟩ := encodeAll_cons h
      rw [List.cons_append, List.append_assoc]
      exact encodeAll_of_cons hg (ih ht)

theorem encodeAll_singleton {f : Frame} (hf : f.encode = .ok b) : encodeAll [f] = .ok b := by
  have h := encodeAll_of_cons hf (rfl : encodeAll [] = .ok [])
  rwa [List.append_nil] at h

theorem encodeAll_snoc {f : Frame} {frames : List Frame} {last : Bytes}
    (h : encodeAll frames = .ok b) (hf : f.encode = .ok last) :
    encodeAll (frames ++ [f]) = .ok (b ++ last) :=
  encodeAll_append h (encodeAll_singleton hf)

/-- **Frames that were written one behind the other are read back in order**, and behind them the
stream has ended. -/
theorem readMany_eq {frames : List Frame} (hb : encodeAll frames = .ok b)
    (h : Delivers arrivals b) (n : Nat) :
    readMany (frames.length + (n + 1)) arrivals =
      (frames.map (fun f => .ok (some f)) ++ List.replicate (n + 1) (.ok none), []) := by
  induction frames generalizing arrivals b with
  | nil =>
      cases hb
      rw [List.length_nil, Nat.zero_add]
      exact readMany_of_delivers_nil h n
  | cons f frames ih =>
      obtain ⟨front, tail, hf, ht, rfl⟩ := encodeAll_cons hb
      obtain ⟨rest, hread, hrest⟩ := readFrame_of_delivers hf h
      rw [List.length_cons, Nat.add_right_comm, readMany, hread, ih ht hrest]
      rfl

/-- **Reading from a stream depends on the bytes alone.**  However they arrive, the result is the
front of the buffer, its bytes are taken, and all others still come; and of frames that were written
one behind the other, each is read in its turn, and then nothing. -/
theorem readFrame_front :
    (∀ b : Bytes, ∃ result consumed, Front b result consumed ∧
      ∀ arrivals, Delivers arrivals b → ∃ rest, readFrame arrivals = (result, rest) ∧
        Delivers rest (b.drop consumed) ∧ Source.unread rest + consumed = b.length) ∧
    ∀ (frames : List Frame) (b : Bytes), encodeAll frames = .ok b →
      ∀ arrivals, Delivers arrivals b → ∀ n,
        readMany (frames.length + (n + 1)) arrivals =
          (frames.map (fun f => .ok (some f)) ++ List.replicate (n + 1) (.ok none), []) := by
  refine ⟨fun b => ⟨_, _, front_readBuffer b, fun arrivals h => ?_⟩,
    fun frames b hb arrivals h n => readMany_eq hb h n⟩
  obtain ⟨rest, hread, hrest⟩ := readFrame_eq_readBuffer h
  refine ⟨rest, hread, hrest, ?_⟩
  rw [hrest.unread_eq, List.length_drop]
  exact Nat.sub_add_cancel (front_readBuffer b).le_length

/-- Two queries, in pieces that end within a length field and within a header. -/
def twoQueries : List Arrival :=
  [.chunk [0, 0], .failure .interrupted, .chunk [0, 16, 0, 1, 0, 2, 0, 0, 0], .failure .interrupted,
    .failure .interrupted, .chunk [0, 0, 0, 0, 1, 4, 0, 0, 0, 0, 0, 0, 16, 0, 1, 0, 2, 0],
    .chunk [0, 0, 0, 0, 0, 0, 2, 8, 0, 0, 0]]

/-- The two queries arrive in pieces, with an interruption. -/
theorem delivers_twoQueries : Delivers twoQueries (Source.pending twoQueries) := by
  refine ⟨rfl, ?_⟩
  intro kind h
  simp only [twoQueries, List.mem_cons, List.not_mem_nil, or_false, reduceCtorEq, false_or,
    Arrival.failure.injEq, or_self] at h
  exact h

/-- The two queries are read, each with its twenty bytes, and then the stream has ended. -/
theorem readFrame_front_small :
    (∃ rest, readFrame twoQueries = (.ok (some ⟨.queryObject, 1, [4, 0, 0, 0]⟩), rest) ∧
      Source.unread rest = 20) ∧
    readMany 3 twoQueries = ([.ok (some ⟨.queryObject, 1, [4, 0, 0, 0]⟩),
      .ok (some ⟨.queryObject, 2, [8, 0, 0, 0]⟩), .ok none], []) := by
  constructor
  · obtain ⟨result, consumed, front, hall⟩ := readFrame_front.1 (Source.pending twoQueries)
    obtain ⟨rest, hread, -, hunread⟩ := hall twoQueries delivers_twoQueries
    have hdecode : decode (Source.pending twoQueries) =
        .ok ⟨.queryObject, 1, [4, 0, 0, 0]⟩ := by cbv
    cases front with
    | empty nothing => exact absurd nothing (by decide)
    | cutLength _ cut => exact absurd cut (by decide)
    | tooSmall _ small => exact absurd small (by cbv)
    | tooLarge _ large => exact absurd large (by cbv)
    | cutBody _ cut => exact absurd cut (by cbv)
    | unknownVersion _ refused => rw [hdecode] at refused; cases refused
    | unknownKind _ refused => rw [hdecode] at refused; cases refused
    | frame _ decoded =>
        rw [hdecode] at decoded
        cases decoded
        refine ⟨rest, hread, ?_⟩
        have hspan : span (Source.pending twoQueries) = 20 := by cbv
        have hlen : (Source.pending twoQueries).length = 40 := by decide
        omega
  · exact readFrame_front.2 [⟨.queryObject, 1, [4, 0, 0, 0]⟩, ⟨.queryObject, 2, [8, 0, 0, 0]⟩]
      (Source.pending twoQueries) (by cbv) twoQueries delivers_twoQueries 0

end Stream

end SharedSync
