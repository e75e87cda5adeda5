import SharedSync.Proofs.Wire.RoundTrip

/-!
# Wire — the frame at the front of a buffer

The length field at the front of a buffer says how far the first frame reaches (`span`).  Whether
there is a frame, and which, depends on these bytes alone.

* `decode_take`: bytes behind the span change nothing.
* `exists_decode`: a buffer that holds its span gives a frame, unless version or kind is unknown.
* `encode_of_decode`: only what encodes to the span is decoded from it.
* `framesIn`: the frames of a buffer, one behind the other, up to the first that is none.
-/

namespace SharedSync

namespace Frame

variable {b tail : Bytes} {f : Frame}

/-- The bytes that the frame at the front of a buffer takes, by its length field. -/
def span (b : Bytes) : Nat := 4 + (lengthField b).toNat

/-- The buffer has a length field that a frame can have. -/
structure Announces (b : Bytes) : Prop where
  field : 4 ≤ b.length
  range : checkLength (lengthField b) = .ok ()

/-- The buffer holds all that its length field announces. -/
structure Whole (b : Bytes) : Prop extends Announces b where
  covers : span b ≤ b.length

/-! ### Lengths -/

/-- The lengths in range pass the check. -/
theorem checkLength_eq_ok_iff {n : UInt32} :
    checkLength n = .ok () ↔ Limits.frameMin ≤ n.toNat ∧ n.toNat ≤ Limits.frameMax := by
  unfold checkLength
  constructor
  · intro h
    split at h
    · cases h
    · next hmin =>
        split at h
        · cases h
        · next hmax => exact ⟨Nat.not_lt.mp hmin, Nat.not_lt.mp hmax⟩
  · rintro ⟨hmin, hmax⟩
    rw [if_neg (Nat.not_lt.mpr hmin), if_neg (Nat.not_lt.mpr hmax)]

/-- A length fails the check on the side it is out of range. -/
theorem checkLength_eq_error {n : UInt32} {e : FrameError} (h : checkLength n = .error e) :
    n.toNat < Limits.frameMin ∧ e = .lengthTooSmall n ∨
      Limits.frameMax < n.toNat ∧ e = .lengthTooLarge n := by
  unfold checkLength at h
  split at h
  · next hmin => cases h; exact .inl ⟨hmin, rfl⟩
  · split at h
    · next hmax => cases h; exact .inr ⟨hmax, rfl⟩
    · cases h

theorem Announces.header_le_span (h : Announces b) : Limits.frameHeaderBytes ≤ span b := by
  have hmin := (checkLength_eq_ok_iff.mp h.range).1
  simp only [Limits.frameMin, Limits.frameHeaderBytes, span] at hmin ⊢
  omega

theorem Whole.header_le_length (h : Whole b) : Limits.frameHeaderBytes ≤ b.length :=
  Nat.le_trans h.header_le_span h.covers

/-! ### Bytes behind the span -/

theorem field_take {offset width n : Nat} (h : offset + width ≤ n) :
    field (b.take n) offset width = field b offset width := by
  have hle : width ≤ n - offset := by omega
  rw [field, field, List.drop_take, List.take_take, Nat.min_eq_left hle]

theorem lengthField_take {n : Nat} (h : 4 ≤ n) : lengthField (b.take n) = lengthField b := by
  rw [lengthField, lengthField, field_take (by omega)]

theorem length_rest (b : Bytes) :
    (b.drop Limits.frameHeaderBytes).length = b.length - Limits.frameHeaderBytes :=
  List.length_drop

/-- What a buffer that holds its span decodes to. -/
theorem Whole.decode_eq (h : Whole b) : decode b =
    if UInt16.ofNat (field b 4 2) ≠ Limits.protocolVersion then
      .error (.unknownVersion (UInt16.ofNat (field b 4 2)))
    else
      match MessageKind.ofCode? (UInt16.ofNat (field b 6 2)) with
      | none => .error (.unknownKind (UInt16.ofNat (field b 6 2)))
      | some kind => .ok
          { kind
            request := UInt64.ofNat (field b 8 8)
            payload := (b.drop Limits.frameHeaderBytes).take (span b - Limits.frameHeaderBytes) }
    := by
  have hsize : (lengthField b).toNat - Limits.frameMin = span b - Limits.frameHeaderBytes := by
    simp only [span, Limits.frameMin, Limits.frameHeaderBytes]
    omega
  have hfits : ¬ (b.drop Limits.frameHeaderBytes).length < span b - Limits.frameHeaderBytes := by
    have := h.covers
    rw [length_rest]
    omega
  rw [decode, if_neg (Nat.not_lt.mpr h.header_le_length), h.range]
  cases hkind : MessageKind.ofCode? (UInt16.ofNat (field b 6 2)) with
  | none => simp only [hkind]
  | some kind => simp only [hkind, hsize, if_neg hfits]

theorem lengthField_take_span (b : Bytes) : lengthField (b.take (span b)) = lengthField b :=
  lengthField_take (Nat.le_add_right ..)

/-- The bytes of a frame announce just these bytes. -/
theorem span_take_span (b : Bytes) : span (b.take (span b)) = span b :=
  congrArg (fun n : UInt32 => 4 + n.toNat) (lengthField_take_span b)

/-- The bytes of a whole frame are a whole frame. -/
theorem Whole.take (h : Whole b) : Whole (b.take (span b)) := by
  have hlen : (b.take (span b)).length = span b := List.length_take_of_le h.covers
  refine ⟨⟨?_, (lengthField_take_span b).symm ▸ h.range⟩, ?_⟩
  · rw [hlen]
    exact Nat.le_add_right ..
  · exact Nat.le_of_eq ((span_take_span b).trans hlen.symm)

/-- **Bytes behind the span change nothing.** -/
theorem decode_take (h : Whole b) : decode (b.take (span b)) = decode b := by
  have hheader := h.header_le_span
  simp only [Limits.frameHeaderBytes] at hheader
  rw [h.take.decode_eq, h.decode_eq, span_take_span, field_take (by omega), field_take (by omega),
    field_take (by omega), List.drop_take, List.take_take, Nat.min_self]

/-- **A buffer that holds its span gives a frame**, unless version or kind is unknown. -/
theorem exists_decode (h : Whole b) :
    (∃ f, decode b = .ok f) ∨ (∃ v, decode b = .error (.unknownVersion v)) ∨
      ∃ k, decode b = .error (.unknownKind k) := by
  rw [h.decode_eq]
  split
  · exact .inr (.inl ⟨_, rfl⟩)
  · cases MessageKind.ofCode? (UInt16.ofNat (field b 6 2)) with
    | none => exact .inr (.inr ⟨_, rfl⟩)
    | some kind => exact .inl ⟨_, rfl⟩

/-! ### What is decoded -/

/-- A frame that decodes is there from end to end. -/
theorem whole_of_decode (h : decode b = .ok f) : Whole b := by
  unfold decode at h
  split at h
  · cases h
  · next hlong =>
      have hlen := Nat.not_lt.mp hlong
      simp only [Limits.frameHeaderBytes] at hlen
      split at h
      · cases h
      · next hrange =>
          refine ⟨⟨by omega, hrange⟩, ?_⟩
          have hmin := (checkLength_eq_ok_iff.mp hrange).1
          simp only at h
          split at h
          · cases h
          · split at h
            · cases h
            · split at h
              · cases h
              · next hfits =>
                  rw [length_rest] at hfits
                  simp only [Limits.frameMin, Limits.frameHeaderBytes, span] at hmin hfits ⊢
                  omega

theorem code_of_ofCode? {c : UInt16} {kind : MessageKind} (h : MessageKind.ofCode? c = some kind) :
    kind.code = c := by
  unfold MessageKind.ofCode? at h
  split at h
  · next hc => cases h; exact hc.symm
  · split at h
    · next hc => cases h; exact hc.symm
    · split at h
      · next hc => cases h; exact hc.symm
      · cases h

/-- A field, written again, is the bytes it was read from. -/
theorem bigEndian_field {offset width : Nat} (h : offset + width ≤ b.length) :
    Words.bigEndian width (field b offset width) = (b.drop offset).take width := by
  have hlen : ((b.drop offset).take width).length = width := by
    rw [List.length_take, List.length_drop]
    omega
  have := Words.bigEndian_ofBigEndian ((b.drop offset).take width)
  rwa [hlen] at this

theorem field_lt {offset width : Nat} : field b offset width < Words.values width := by
  have hlt := Words.ofLittleEndian_lt ((b.drop offset).take width).reverse
  rw [List.length_reverse, List.length_take] at hlt
  have hmono : ∀ m n, m ≤ n → Words.values m ≤ Words.values n := by
    intro m n hmn
    induction hmn with
    | refl => exact Nat.le_refl _
    | step _ ih => exact Nat.le_trans ih (by rw [Words.values]; omega)
  exact Nat.lt_of_lt_of_le hlt (hmono _ _ (Nat.min_le_left ..))

theorem be16_field {offset : Nat} (h : offset + 2 ≤ b.length) :
    Words.be16 (UInt16.ofNat (field b offset 2)) = (b.drop offset).take 2 := by
  rw [Words.be16, UInt16.toNat_ofNat_of_lt' field_lt, bigEndian_field h]

theorem be32_lengthField (h : 4 ≤ b.length) : Words.be32 (lengthField b) = b.take 4 := by
  rw [Words.be32, lengthField, UInt32.toNat_ofNat_of_lt' field_lt, bigEndian_field (by omega),
    List.drop_zero]

theorem be64_field {offset : Nat} (h : offset + 8 ≤ b.length) :
    Words.be64 (UInt64.ofNat (field b offset 8)) = (b.drop offset).take 8 := by
  rw [Words.be64, UInt64.toNat_ofNat_of_lt' field_lt, bigEndian_field h]

/-- The header's four fields stand one behind the other. -/
theorem take_header (b : Bytes) : b.take Limits.frameHeaderBytes =
    b.take 4 ++ (b.drop 4).take 2 ++ (b.drop 6).take 2 ++ (b.drop 8).take 8 := by
  have h := fun m n => (List.take_add (l := b) (i := m) (j := n)).symm
  rw [h 4 2, h 6 2, h 8 8, Limits.frameHeaderBytes]

/-- **Only what encodes to the span is decoded from it.** -/
theorem encode_of_decode (h : decode b = .ok f) :
    f.encode = .ok (b.take (span b)) ∧ f.payload.length + Limits.frameHeaderBytes = span b := by
  have hw := whole_of_decode h
  have hheader := hw.header_le_length
  have hspan := hw.header_le_span
  have hcovers := hw.covers
  have hrange := checkLength_eq_ok_iff.mp hw.range
  rw [hw.decode_eq] at h
  split at h
  · cases h
  · next hversion =>
      cases hkind : MessageKind.ofCode? (UInt16.ofNat (field b 6 2)) with
      | none => rw [hkind] at h; cases h
      | some kind =>
          rw [hkind] at h
          simp only [Limits.frameMin, Limits.frameMax, Limits.frameHeaderBytes, span] at *
          cases h
          have hpayload : ((b.drop 16).take (4 + (lengthField b).toNat - 16)).length =
              (lengthField b).toNat - 12 := by
            rw [List.length_take, List.length_drop]
            omega
          refine ⟨?_, by rw [hpayload]; omega⟩
          -- the length field counts all but itself, the payload all but the header
          have hlong : ¬ maxPayload < (lengthField b).toNat - 12 := by
            simp only [maxPayload, Limits.frameMax, Limits.frameMin]
            omega
          have hlength : UInt32.ofNat ((lengthField b).toNat - 12 + 12) = lengthField b := by
            rw [Nat.sub_add_cancel hrange.1, UInt32.ofNat_toNat]
          have hsplit : b.take (4 + (lengthField b).toNat) =
              b.take 16 ++ (b.drop 16).take (4 + (lengthField b).toNat - 16) := by
            rw [← List.take_add, Nat.add_sub_cancel' hspan]
          have htake := take_header b
          simp only [Limits.frameHeaderBytes] at htake
          have hat4 : 4 + 2 ≤ b.length := by omega
          have hat6 : 6 + 2 ≤ b.length := by omega
          have hat8 : 8 + 8 ≤ b.length := hheader
          simp only [encode, hpayload, if_neg hlong, header, Limits.frameMin, hlength, hsplit,
            htake, be32_lengthField hw.field, ← Decidable.not_not.mp hversion, be16_field hat4,
            code_of_ofCode? hkind, be16_field hat6, be64_field hat8]

/-! ### All frames of a buffer -/

/-- Every frame takes up some bytes, so a series of frames ends. -/
theorem span_pos (b : Bytes) : 0 < span b := Nat.lt_of_lt_of_le (by decide) (Nat.le_add_right 4 _)

/-- The frames that stand one behind the other in a buffer, up to the first that is none. -/
def framesIn (b : Bytes) : List Frame :=
  match _h : decode b with
  | .ok f => f :: framesIn (b.drop (span b))
  | .error _ => []
termination_by b.length
decreasing_by
  have hcovers := (whole_of_decode _h).covers
  have hpos := span_pos b
  rw [List.length_drop]
  omega

theorem framesIn_of_ok (h : decode b = .ok f) : framesIn b = f :: framesIn (b.drop (span b)) := by
  rw [framesIn]
  split
  · next hd => rw [h] at hd; cases hd; rfl
  · next hd => rw [h] at hd; cases hd

theorem framesIn_of_error {e : FrameError} (h : decode b = .error e) : framesIn b = [] := by
  rw [framesIn]
  split
  · next hd => rw [h] at hd; cases hd
  · rfl

end Frame

end SharedSync
