import SharedSync.Proofs.Wire.Fronts

/-!
# Wire — the verdict on a buffer

A buffer that is long enough for a header begins with one, whatever its bytes: a length, a version,
a kind and a request number (`exists_written`).  `Verdict` says what each buffer gives.  The checks
are made in one order, so that a case of it states that all checks before the failing one have
passed; sizes are given by what they add up to.

* `decode_eq_iff`: `decode` gives the verdict.
* `decode_eq_ok_iff`: a frame is decoded from its encoding, whatever stands behind that, and from
  nothing else.
* `encode_eq_error_iff`: only a payload that is too long is not encoded.
* `codec_exact`: the three together.
-/

namespace SharedSync

namespace Frame

variable {b : Bytes} {f : Frame}

/-- A length field that a frame can have. -/
def InRange (length : UInt32) : Prop :=
  Limits.frameMin ≤ length.toNat ∧ length.toNat ≤ Limits.frameMax

/-- What a buffer gives: a frame, or the first check that fails. -/
inductive Verdict : Bytes → Except FrameError Frame → Prop where
  | tooShort {b : Bytes} (short : b.length < Limits.frameHeaderBytes) : Verdict b (.error .tooShort)
  | lengthTooSmall {n v k i behind} (small : n.toNat < Limits.frameMin) :
      Verdict (written n v k i behind) (.error (.lengthTooSmall n))
  | lengthTooLarge {n v k i behind} (large : Limits.frameMax < n.toNat) :
      Verdict (written n v k i behind) (.error (.lengthTooLarge n))
  | unknownVersion {n v k i behind} (range : InRange n) (unknown : v ≠ Limits.protocolVersion) :
      Verdict (written n v k i behind) (.error (.unknownVersion v))
  | unknownKind {n k i behind} (range : InRange n)
      (unknown : ∀ kind : MessageKind, kind.code ≠ k) :
      Verdict (written n Limits.protocolVersion k i behind) (.error (.unknownKind k))
  | payloadTruncated {n i behind expected} {kind : MessageKind} (range : InRange n)
      (announced : expected + Limits.frameMin = n.toNat) (cut : behind.length < expected) :
      Verdict (written n Limits.protocolVersion kind.code i behind)
        (.error (.payloadTruncated expected behind.length))
  | frame {n i payload rest} {kind : MessageKind} (range : InRange n)
      (announced : payload.length + Limits.frameMin = n.toNat) :
      Verdict (written n Limits.protocolVersion kind.code i (payload ++ rest))
        (.ok ⟨kind, i, payload⟩)

/-! ### Headers -/

/-- **A buffer that is long enough begins with a header.** -/
theorem exists_written (h : Limits.frameHeaderBytes ≤ b.length) :
    ∃ n v k i behind, b = written n v k i behind := by
  rw [Limits.frameHeaderBytes] at h
  have hat4 : 4 + 2 ≤ b.length := by omega
  have hat6 : 6 + 2 ≤ b.length := by omega
  have hheader := take_header b
  rw [Limits.frameHeaderBytes, ← be32_lengthField (by omega), ← be16_field hat4,
    ← be16_field hat6, ← be64_field h] at hheader
  refine ⟨lengthField b, UInt16.ofNat (field b 4 2), UInt16.ofNat (field b 6 2),
    UInt64.ofNat (field b 8 8), b.drop 16, ?_⟩
  calc b = b.take 16 ++ b.drop 16 := (List.take_append_drop 16 b).symm
    _ = _ := by rw [hheader]; simp only [written, List.append_assoc]

theorem checkLength_of_inRange {n : UInt32} (h : InRange n) : checkLength n = .ok () :=
  checkLength_eq_ok_iff.mpr h

/-- A code is unknown just if no kind has it. -/
theorem ofCode?_eq_none_iff {k : UInt16} :
    MessageKind.ofCode? k = none ↔ ∀ kind : MessageKind, kind.code ≠ k := by
  constructor
  · rintro h kind rfl
    rw [MessageKind.ofCode?_code] at h
    cases h
  · intro h
    cases hk : MessageKind.ofCode? k with
    | none => rfl
    | some kind => exact absurd (code_of_ofCode? hk) (h kind)

/-! ### The verdict -/

/-- What a header and a rest come to. -/
theorem verdict_written (n : UInt32) (v k : UInt16) (i : UInt64) (behind : Bytes) :
    Verdict (written n v k i behind) (decode (written n v k i behind)) := by
  rw [decode_written]
  -- the checks in their order; each verdict needs that those before it passed
  cases hc : checkLength n with
  | error e =>
      rcases checkLength_eq_error hc with ⟨hsmall, rfl⟩ | ⟨hlarge, rfl⟩
      · exact .lengthTooSmall hsmall
      · exact .lengthTooLarge hlarge
  | ok done =>
      have range : InRange n := checkLength_eq_ok_iff.mp hc
      by_cases hv : v ≠ Limits.protocolVersion
      · simp only [if_pos hv]
        exact .unknownVersion range hv
      · obtain rfl := Decidable.not_not.mp hv
        cases hk : MessageKind.ofCode? k with
        | none =>
            simp only [if_neg hv]
            exact .unknownKind range (ofCode?_eq_none_iff.mp hk)
        | some kind =>
            obtain rfl := code_of_ofCode? hk
            have hsize : n.toNat - Limits.frameMin + Limits.frameMin = n.toNat :=
              Nat.sub_add_cancel range.1
            simp only [if_neg hv]
            generalize n.toNat - Limits.frameMin = size at hsize ⊢
            by_cases hcut : behind.length < size
            · rw [if_pos hcut]
              exact .payloadTruncated range hsize hcut
            · rw [if_neg hcut]
              have hlen : (behind.take size).length = size :=
                List.length_take_of_le (Nat.not_lt.mp hcut)
              have h := @Verdict.frame n i (behind.take size) (behind.drop size) kind range
                (by rw [hlen, hsize])
              rwa [List.take_append_drop] at h

/-- Every buffer has its verdict, and `decode` finds it. -/
theorem verdict_decode (b : Bytes) : Verdict b (decode b) := by
  rcases Nat.lt_or_ge b.length Limits.frameHeaderBytes with hshort | hlong
  · rw [decode, if_pos hshort]
    exact .tooShort hshort
  · obtain ⟨n, v, k, i, behind, rfl⟩ := exists_written hlong
    exact verdict_written n v k i behind

/-- The verdict is what the decoder says. -/
theorem Verdict.decode_eq {result : Except FrameError Frame} (h : Verdict b result) :
    decode b = result := by
  cases h with
  | tooShort short => rw [decode, if_pos short]
  | lengthTooSmall small => rw [decode_written, checkLength, if_pos small]
  | lengthTooLarge large =>
      have hmin : ¬ _ < Limits.frameMin :=
        Nat.not_lt.mpr (Nat.le_trans (by decide) (Nat.le_of_lt large))
      rw [decode_written, checkLength, if_neg hmin, if_pos large]
  | unknownVersion range unknown =>
      simp only [decode_written, checkLength_of_inRange range, if_pos unknown]
  | unknownKind range unknown =>
      simp only [decode_written, checkLength_of_inRange range, ofCode?_eq_none_iff.mpr unknown,
        ne_eq, not_true_eq_false, if_false]
  | payloadTruncated range announced cut =>
      have hsize := Nat.eq_sub_of_add_eq announced
      rw [hsize] at cut
      simp only [decode_written, checkLength_of_inRange range, MessageKind.ofCode?_code,
        ne_eq, not_true_eq_false, if_false, if_pos cut, hsize]
  | @frame n i payload rest kind range announced =>
      have hsize := Nat.eq_sub_of_add_eq announced
      have hfits : ¬ (payload ++ rest).length < payload.length := by
        rw [List.length_append]
        exact Nat.not_lt.mpr (Nat.le_add_right _ _)
      simp only [decode_written, checkLength_of_inRange range, MessageKind.ofCode?_code,
        ne_eq, not_true_eq_false, if_false, ← hsize, hfits, List.take_left]

/-- **`decode` gives the verdict.** -/
theorem decode_eq_iff {result : Except FrameError Frame} : decode b = result ↔ Verdict b result :=
  ⟨fun h => h ▸ verdict_decode b, Verdict.decode_eq⟩

/-! ### Encodings -/

/-- **Only a payload that is too long is not encoded.** -/
theorem encode_eq_error_iff {e : FrameError} : f.encode = .error e ↔
    maxPayload < f.payload.length ∧ e = .payloadTooLarge f.payload.length := by
  unfold encode
  by_cases h : maxPayload < f.payload.length
  · rw [if_pos h]
    constructor
    · rintro ⟨⟩
      exact ⟨h, rfl⟩
    · rintro ⟨-, rfl⟩
      rfl
  · rw [if_neg h]
    constructor
    · rintro ⟨⟩
    · rintro ⟨hlong, -⟩
      exact absurd hlong h

/-- An encoding is a header with the payload behind it, and what follows is left alone. -/
theorem verdict_of_encode {bytes : Bytes} (h : f.encode = .ok bytes) (rest : Bytes) :
    Verdict (bytes ++ rest) (.ok f) := by
  obtain ⟨n, rfl, hn, hcheck⟩ := encode_eq_ok h
  rw [length_body] at hn
  have hwritten : Words.be32 n ++ f.body ++ rest =
      written n Limits.protocolVersion f.kind.code f.request (f.payload ++ rest) := by
    simp only [body, written, List.append_assoc]
  rw [hwritten]
  exact .frame (checkLength_eq_ok_iff.mp hcheck) hn

/-- **A frame is decoded from its encoding**, whatever stands behind that, and from nothing else. -/
theorem decode_eq_ok_iff : decode b = .ok f ↔ ∃ bytes rest, f.encode = .ok bytes ∧
    b = bytes ++ rest := by
  constructor
  · intro h
    exact ⟨b.take (span b), b.drop (span b), (encode_of_decode h).1,
      (List.take_append_drop _ b).symm⟩
  · rintro ⟨bytes, rest, h, rfl⟩
    exact (verdict_of_encode h rest).decode_eq

/-- **The codec of frames is exact.**  A frame is encoded unless its payload is too long, and decoded
from just the buffers that begin with its encoding, of which no two frames share one; every other
buffer gives the first check that fails. -/
theorem codec_exact (f : Frame) (b : Bytes) :
    (∀ e, f.encode = .error e ↔
      Limits.frameMax < f.payload.length + Limits.frameMin ∧
        e = .payloadTooLarge f.payload.length) ∧
    (decode b = .ok f ↔ ∃ bytes rest, f.encode = .ok bytes ∧ b = bytes ++ rest) ∧
    (∀ (g : Frame) (bytes other tail rest : Bytes), f.encode = .ok bytes → g.encode = .ok other →
      bytes ++ tail = other ++ rest → f = g) ∧
    ∀ e, decode b = .error e ↔ Verdict b (.error e) := by
  refine ⟨fun e => ?_, decode_eq_ok_iff, fun g bytes other tail rest => eq_of_encode,
    fun e => decode_eq_iff⟩
  rw [encode_eq_error_iff, maxPayload, Nat.sub_lt_iff_lt_add (by decide), Nat.add_comm]

namespace Small

/-- A query whose payload is two bytes. -/
def query : Frame := ⟨.queryObject, 0x0102030405060708, [0xAA, 0xBB]⟩

/-- Its bytes on the wire. -/
def queryBytes : Bytes := [0, 0, 0, 14, 0, 1, 0, 2, 1, 2, 3, 4, 5, 6, 7, 8, 0xAA, 0xBB]

/-- A reply of which only the header is there. -/
def cutReply : Bytes := [0, 0, 0, 20, 0, 1, 0, 3, 0, 0, 0, 0, 0, 0, 0, 1]

/-- A header whose length leaves no room for itself. -/
def tooSmall : Bytes := [0, 0, 0, 11, 0, 9, 0, 42, 0, 0, 0, 0, 0, 0, 0, 1]

end Small

/-- A frame with a byte behind it, a frame that is cut off, and a header in which nothing is right:
the length is what is reported. -/
theorem codec_exact_small :
    decode (Small.queryBytes ++ [7]) = .ok Small.query ∧
    decode Small.cutReply = .error (.payloadTruncated 8 0) ∧
    decode Small.tooSmall = .error (.lengthTooSmall 11) := by
  refine ⟨(codec_exact Small.query _).2.1.mpr ⟨Small.queryBytes, [7], by cbv, rfl⟩,
    ((codec_exact Small.query _).2.2.2 _).mpr ?_, ((codec_exact Small.query _).2.2.2 _).mpr ?_⟩
  · have hcut : Small.cutReply = written 20 Limits.protocolVersion MessageKind.reply.code 1 [] :=
      rfl
    rw [hcut]
    exact .payloadTruncated ⟨by decide, by decide⟩ rfl (by decide)
  · have hsmall : Small.tooSmall = written 11 9 42 1 [] := rfl
    rw [hsmall]
    exact .lengthTooSmall (by decide)

end Frame

end SharedSync
