import SharedSync.Proofs.Text.Utf16
import SharedSync.Proofs.Words.Reading
import SharedSync.Wire.Frame
import SharedSync.Wire.Messages

/-!
# Wire — what is sent is what is read

* `CreateRequest.decode?_encode`: a create request arrives as it was sent, but for an empty name,
  which arrives as no name (`normal`).
* `Reply.decode?_encode_eq`: a reply arrives with the status that its code stands for, and otherwise
  as it was sent.
* `Frame.decode_encode`: so does a frame; `Frame.eq_of_encode`: no two frames begin the same bytes.
-/

namespace SharedSync

/-! ### Attributes -/

namespace ObjectAttributes

/-- The attributes as they arrive: an empty name is no name. -/
def normal (a : ObjectAttributes) : ObjectAttributes :=
  { a with name := a.name.filter fun name => !name.isEmpty }

variable {a : ObjectAttributes}

/-- Attributes that were encoded are within the limits. -/
theorem encode_eq_ok {bytes : Bytes} (h : a.encode = .ok bytes) :
    a.nameUnits.length ≤ Limits.maxNameUnits ∧ a.descriptor.length < lengthBound ∧
      bytes = a.block := by
  unfold encode validate at h
  by_cases hn : Limits.maxNameUnits < a.nameUnits.length
  · rw [if_pos hn] at h
    cases h
  · rw [if_neg hn] at h
    by_cases hd : lengthBound ≤ a.descriptor.length
    · simp only [if_pos hd] at h
      cases h
    · simp only [if_neg hd] at h
      cases h
      exact ⟨Nat.not_lt.mp hn, Nat.not_le.mp hd, rfl⟩

/-- A name is read back, and an empty one as none. -/
theorem readName?_toBytes (a : ObjectAttributes) :
    readName? (Utf16.toBytes a.nameUnits) = some a.normal.name := by
  unfold readName?
  by_cases h : a.nameUnits = []
  · have hname : a.name.getD "" = "" := (Utf16.encode_eq_nil_iff _).mp h
    rw [h]
    show (some none : Option (Option String)) = _
    cases hn : a.name with
    | none => rw [normal, hn]; rfl
    | some name =>
        rw [hn, Option.getD_some] at hname
        rw [normal, hn, hname]
        rfl
  · have hname : a.name.getD "" ≠ "" := fun hname => h ((Utf16.encode_eq_nil_iff _).mpr hname)
    have hlen : (Utf16.toBytes a.nameUnits).isEmpty = false := by
      rw [List.isEmpty_eq_false_iff, ← List.length_pos_iff, Utf16.length_toBytes]
      have := List.length_pos_iff.mpr h
      omega
    rw [hlen, Utf16.ofBytes_toBytes, nameUnits, Utf16.decode?_encode]
    cases hn : a.name with
    | none => exact absurd (by rw [hn]; rfl) hname
    | some name =>
        rw [hn, Option.getD_some] at hname
        have hne : name.isEmpty = false := by
          rw [← Bool.not_eq_true, String.isEmpty_iff]
          exact hname
        rw [normal, hn]
        simp only [Bool.false_eq_true, if_false, Option.map_some, Option.getD_some, Option.filter,
          hne, Bool.not_false, if_true]

theorem length_block (a : ObjectAttributes) :
    a.block.length = fixedBytes + a.descriptor.length + 2 * a.nameUnits.length := by
  simp only [block, List.length_append, Words.length_le32, Utf16.length_toBytes, fixedBytes]
  omega

/-- A block that its length fields can describe is read back, whatever stands behind it. -/
theorem decode?_block (fits : a.block.length < lengthBound) (behind : Bytes) :
    decode? (a.block ++ behind) = some a.normal := by
  rw [length_block] at fits
  have hdl : (UInt32.ofNat a.descriptor.length).toNat = a.descriptor.length :=
    UInt32.toNat_ofNat_of_lt' (Nat.lt_of_le_of_lt (by omega) fits)
  have hnl : (UInt32.ofNat (2 * a.nameUnits.length)).toNat = 2 * a.nameUnits.length :=
    UInt32.toNat_ofNat_of_lt' (Nat.lt_of_le_of_lt (by omega) fits)
  -- each field is read off the front of what the one before it left
  have hsrc : a.block ++ behind = Words.le32 (Handle.rawOr0 a.root) ++ (Words.le32 a.flags.bits ++
    (Words.le32 (UInt32.ofNat a.descriptor.length) ++
      (Words.le32 (UInt32.ofNat (2 * a.nameUnits.length)) ++
        (a.descriptor ++ (Utf16.toBytes a.nameUnits ++ behind))))) := by
    simp only [block, List.append_assoc]
  obtain ⟨c₁, h₁, hrest⟩ := Cursor.word?_of_rest ((Cursor.rest_ofBytes _).trans hsrc)
  obtain ⟨c₂, h₂, hrest⟩ := Cursor.word?_of_rest hrest
  obtain ⟨c₃, h₃, hrest⟩ := Cursor.word?_of_rest hrest
  obtain ⟨c₄, h₄, hrest⟩ := Cursor.word?_of_rest hrest
  obtain ⟨c₅, h₅, hrest⟩ := Cursor.take?_of_rest hrest
  obtain ⟨c₆, h₆, -⟩ := Cursor.take?_of_rest hrest
  rw [Utf16.length_toBytes] at h₆
  rw [decode?]
  simp only [Option.bind_eq_bind, h₁, h₂, h₃, h₄, Option.bind_some, hdl, hnl, Nat.mul_mod_right,
    ne_eq, not_true_eq_false, if_false, h₅, h₆, readName?_toBytes, Handle.ofRaw?_rawOr0]
  rfl

end ObjectAttributes

/-! ### Requests -/

namespace CreateRequest

/-- The request as it arrives. -/
def normal (r : CreateRequest) : CreateRequest :=
  { r with attributes := r.attributes.map ObjectAttributes.normal }

/-- The block of attributes, of which there may be none. -/
def block (r : CreateRequest) : Bytes := r.attributes.elim [] ObjectAttributes.block

variable {r : CreateRequest} {bytes : Bytes}

theorem block_eq_of_encode {found : Bytes}
    (h : r.attributes.elim (.ok []) ObjectAttributes.encode = .ok found) : found = r.block := by
  unfold block
  cases hr : r.attributes with
  | none => rw [hr] at h; cases h; rfl
  | some a =>
      rw [hr] at h
      exact (ObjectAttributes.encode_eq_ok h).2.2

/-- The five numbers in front of a block of attributes. -/
def front (r : CreateRequest) (length : Nat) : Bytes :=
  Words.le32 r.type ++ (Words.le32 r.access.bits ++ (Words.leInt32 r.low ++
    (Words.leInt32 r.high ++ Words.le32 (UInt32.ofNat length))))

/-- A request that was encoded is within the limits. -/
theorem encode_eq_ok (h : r.encode = .ok bytes) :
    r.block.length < ObjectAttributes.lengthBound ∧ bytes = r.front r.block.length ++ r.block := by
  unfold encode at h
  cases he : r.attributes.elim (.ok []) ObjectAttributes.encode with
  | error fault => rw [he] at h; cases h
  | ok found =>
      obtain rfl := block_eq_of_encode he
      simp only [he] at h
      by_cases hl : ObjectAttributes.lengthBound ≤ r.block.length
      · rw [if_pos hl] at h
        cases h
      · rw [if_neg hl] at h
        cases h
        refine ⟨Nat.not_le.mp hl, ?_⟩
        simp only [front, List.append_assoc]

theorem readAttributes?_of_rest {unread : Bytes}
    (fits : r.block.length + unread.length < ObjectAttributes.lengthBound)
    (absent : r.attributes = none → unread = []) {c : Cursor} (hc : c.rest = r.block ++ unread) :
    ∃ c', readAttributes? (r.block.length + unread.length) c = some (r.normal.attributes, c') ∧
      c'.rest = [] := by
  unfold readAttributes?
  cases hr : r.attributes with
  | none =>
      have hb : r.block = [] := by rw [block, hr]; rfl
      rw [hb, absent hr] at hc ⊢
      refine ⟨c, ?_, hc⟩
      rw [normal, hr]
      rfl
  | some a =>
      have hb : r.block = a.block := by rw [block, hr]; rfl
      rw [hb] at fits hc ⊢
      have hne : a.block.length + unread.length ≠ 0 := by
        rw [ObjectAttributes.length_block, ObjectAttributes.fixedBytes]
        omega
      obtain ⟨c', ht, hrest⟩ := Cursor.take?_of_rest (hc.trans (List.append_nil _).symm)
      rw [List.length_append] at ht
      refine ⟨c', ?_, hrest⟩
      simp only [if_neg hne, Option.bind_eq_bind, ht, Option.bind_some,
        ObjectAttributes.decode?_block (Nat.lt_of_le_of_lt (Nat.le_add_right ..) fits), normal, hr,
        Option.map_some]

/-- A payload is read, also if its block has bytes that the attributes do not account for. -/
theorem decode?_front {unread : Bytes}
    (fits : r.block.length + unread.length < ObjectAttributes.lengthBound)
    (absent : r.attributes = none → unread = []) :
    decode? (r.front (r.block.length + unread.length) ++ (r.block ++ unread)) =
      some r.normal := by
  have hl : (UInt32.ofNat (r.block.length + unread.length)).toNat =
      r.block.length + unread.length := UInt32.toNat_ofNat_of_lt' fits
  simp only [front, List.append_assoc]
  have hrest := Cursor.rest_ofBytes (Words.le32 r.type ++ (Words.le32 r.access.bits ++
    (Words.leInt32 r.low ++ (Words.leInt32 r.high ++
      (Words.le32 (UInt32.ofNat (r.block.length + unread.length)) ++ (r.block ++ unread))))))
  obtain ⟨c₁, h₁, hrest⟩ := Cursor.word?_of_rest hrest
  obtain ⟨c₂, h₂, hrest⟩ := Cursor.word?_of_rest hrest
  obtain ⟨c₃, h₃, hrest⟩ := Cursor.signed?_of_rest hrest
  obtain ⟨c₄, h₄, hrest⟩ := Cursor.signed?_of_rest hrest
  obtain ⟨c₅, h₅, hrest⟩ := Cursor.word?_of_rest hrest
  obtain ⟨c₆, h₆, hrest⟩ := readAttributes?_of_rest fits absent hrest
  have hdone : c₆.remaining = 0 := by rw [Cursor.remaining_eq, hrest]; rfl
  unfold decode?
  simp only [Option.bind_eq_bind, h₁, h₂, h₃, h₄, h₅, Option.bind_some, hl, h₆, hdone, ne_eq,
    not_true_eq_false, if_false]
  rfl

/-- **A create request arrives as it was sent**, but for an empty name. -/
theorem decode?_encode (h : r.encode = .ok bytes) : decode? bytes = some r.normal := by
  obtain ⟨fits, rfl⟩ := encode_eq_ok h
  have hread := @decode?_front r [] fits fun _ => rfl
  rwa [List.append_nil] at hread

end CreateRequest

/-! ### Replies -/

namespace Reply

/-- Four words in their order. -/
def written (status handle slot type : UInt32) : Bytes :=
  Words.le32 status ++ (Words.le32 handle ++ (Words.le32 slot ++ Words.le32 type))

/-- The reply that four words are read as. -/
def ofWords (status handle slot type : UInt32) : Reply :=
  ⟨Status.ofCode status, Handle.ofRaw? handle, ⟨slot⟩, type⟩

section Words

variable (status handle slot type : UInt32)

theorem length_written : (written status handle slot type).length = bytes := by
  simp only [written, List.length_append, Words.length_le32, bytes]

/-- Any four words are read as a reply. -/
theorem decode?_written :
    decode? (written status handle slot type) = some (ofWords status handle slot type) := by
  have hrest := Cursor.rest_ofBytes (written status handle slot type)
  unfold written at hrest
  obtain ⟨c₁, h₁, hrest⟩ := Cursor.word?_of_rest hrest
  obtain ⟨c₂, h₂, hrest⟩ := Cursor.word?_of_rest hrest
  obtain ⟨c₃, h₃, hrest⟩ := Cursor.word?_of_rest hrest
  obtain ⟨c₄, h₄, -⟩ := Cursor.word?_of_rest (hrest.trans (List.append_nil _).symm)
  rw [decode?, if_neg (Decidable.not_not.mpr (length_written status handle slot type))]
  simp only [written, Option.bind_eq_bind, h₁, h₂, h₃, h₄, Option.bind_some, ofWords]

end Words

variable {r : Reply}

theorem encode_eq (r : Reply) :
    r.encode = written r.status.code (Handle.rawOr0 r.handle) r.slot.number r.type := by
  simp only [encode, written, List.append_assoc]

theorem length_encode (r : Reply) : r.encode.length = bytes := by
  rw [encode_eq, length_written]

/-- Only payloads of sixteen bytes are replies. -/
theorem length_of_decode? {payload : Bytes} (h : decode? payload = some r) :
    payload.length = bytes := by
  unfold decode? at h
  split at h
  · cases h
  · next hlen => exact Decidable.not_not.mp hlen

/-- A reply arrives with the status that its code stands for, and otherwise as it was sent. -/
theorem decode?_encode_eq (r : Reply) :
    decode? r.encode = some { r with status := Status.ofCode r.status.code } := by
  rw [encode_eq, decode?_written, ofWords, Handle.ofRaw?_rawOr0]

/-- **A reply arrives as it was sent**, if its status is the one that its code stands for. -/
theorem decode?_encode_of_code (h : Status.ofCode r.status.code = r.status) :
    decode? r.encode = some r := by
  rw [decode?_encode_eq, h]

/-- A reply with a named status arrives as it was sent. -/
theorem decode?_encode (h : r.status.isNamed) : decode? r.encode = some r :=
  decode?_encode_of_code (Status.ofCode_code_of_isNamed h)

end Reply

/-! ### Frames -/

namespace Frame

theorem field_append (front middle tail : Bytes) :
    field (front ++ (middle ++ tail)) front.length middle.length = Words.ofBigEndian middle := by
  rw [field, List.drop_left, List.take_left]

theorem toNat_be16 (v : UInt16) : Words.ofBigEndian (Words.be16 v) = v.toNat := by
  rw [Words.be16, Words.ofBigEndian_bigEndian]
  exact Nat.mod_eq_of_lt v.toNat_lt

theorem toNat_be32 (v : UInt32) : Words.ofBigEndian (Words.be32 v) = v.toNat := by
  rw [Words.be32, Words.ofBigEndian_bigEndian]
  exact Nat.mod_eq_of_lt v.toNat_lt

theorem toNat_be64 (v : UInt64) : Words.ofBigEndian (Words.be64 v) = v.toNat := by
  rw [Words.be64, Words.ofBigEndian_bigEndian]
  exact Nat.mod_eq_of_lt v.toNat_lt

theorem lengthField_be32 (n : UInt32) (tail : Bytes) : lengthField (Words.be32 n ++ tail) = n := by
  have h := field_append [] (Words.be32 n) tail
  rw [List.nil_append, List.length_nil, Words.length_be32, toNat_be32] at h
  rw [lengthField, h, UInt32.ofNat_toNat]

variable {f : Frame} {bytes : Bytes}

/-- What stands behind the length field. -/
def body (f : Frame) : Bytes :=
  Words.be16 Limits.protocolVersion ++
    (Words.be16 f.kind.code ++ (Words.be64 f.request ++ f.payload))

theorem length_body (f : Frame) : f.body.length = f.payload.length + Limits.frameMin := by
  simp only [body, List.length_append, Words.length_be16, Words.length_be64, Limits.frameMin]
  omega

/-- An encoded frame is its length field, which is in range, and as many bytes. -/
theorem encode_eq_ok (h : f.encode = .ok bytes) :
    ∃ n : UInt32, bytes = Words.be32 n ++ f.body ∧ f.body.length = n.toNat ∧
      checkLength n = .ok () := by
  unfold encode at h
  by_cases hp : maxPayload < f.payload.length
  · rw [if_pos hp] at h
    cases h
  · rw [if_neg hp] at h
    cases h
    have hle : f.payload.length + 12 ≤ 1048576 := by
      simp only [maxPayload, Limits.frameMax, Limits.frameMin] at hp
      omega
    have hn : (UInt32.ofNat (f.payload.length + Limits.frameMin)).toNat =
        f.payload.length + Limits.frameMin :=
      UInt32.toNat_ofNat_of_lt' (Nat.lt_of_le_of_lt hle (by decide))
    refine ⟨UInt32.ofNat (f.payload.length + Limits.frameMin), ?_, ?_, ?_⟩
    · simp only [header, body, List.append_assoc]
    · rw [length_body, hn]
    · rw [checkLength, hn, if_neg, if_neg]
      · simp only [Limits.frameMax, Limits.frameMin]
        omega
      · exact Nat.not_lt.mpr (Nat.le_add_left _ _)

/-- A header with these fields, and what stands behind it. -/
def written (length : UInt32) (version code : UInt16) (request : UInt64) (behind : Bytes) : Bytes :=
  Words.be32 length ++ (Words.be16 version ++ (Words.be16 code ++ (Words.be64 request ++ behind)))

section Written

variable (length : UInt32) (version code : UInt16) (request : UInt64) (behind : Bytes)

theorem length_written : (written length version code request behind).length =
    behind.length + Limits.frameHeaderBytes := by
  simp only [written, List.length_append, Words.length_be32, Words.length_be16, Words.length_be64,
    Limits.frameHeaderBytes]
  omega

theorem version_written :
    UInt16.ofNat (field (written length version code request behind) 4 2) = version := by
  have h := field_append (Words.be32 length) (Words.be16 version)
    (Words.be16 code ++ (Words.be64 request ++ behind))
  rw [Words.length_be32, Words.length_be16, toNat_be16] at h
  rw [written, h, UInt16.ofNat_toNat]

theorem code_written :
    UInt16.ofNat (field (written length version code request behind) 6 2) = code := by
  have h := field_append (Words.be32 length ++ Words.be16 version) (Words.be16 code)
    (Words.be64 request ++ behind)
  rw [List.length_append, Words.length_be32, Words.length_be16, Words.length_be16, toNat_be16,
    List.append_assoc] at h
  rw [written, h, UInt16.ofNat_toNat]

theorem request_written :
    UInt64.ofNat (field (written length version code request behind) 8 8) = request := by
  have h := field_append (Words.be32 length ++ (Words.be16 version ++ Words.be16 code))
    (Words.be64 request) behind
  rw [List.length_append, List.length_append, Words.length_be32, Words.length_be16,
    Words.length_be16, Words.length_be64, toNat_be64, List.append_assoc, List.append_assoc] at h
  rw [written, h, UInt64.ofNat_toNat]

theorem drop_written :
    (written length version code request behind).drop Limits.frameHeaderBytes = behind := by
  have h := @List.drop_left UInt8
    (Words.be32 length ++ (Words.be16 version ++ (Words.be16 code ++ Words.be64 request))) behind
  rwa [List.length_append, List.length_append, List.length_append, Words.length_be32,
    Words.length_be16, Words.length_be16, Words.length_be64, List.append_assoc, List.append_assoc,
    List.append_assoc] at h

/-- What a header decodes to, by its fields. -/
theorem decode_written : decode (written length version code request behind) =
    match checkLength length with
    | .error e => .error e
    | .ok () =>
        if version ≠ Limits.protocolVersion then .error (.unknownVersion version)
        else
          match MessageKind.ofCode? code with
          | none => .error (.unknownKind code)
          | some kind =>
              if behind.length < length.toNat - Limits.frameMin then
                .error (.payloadTruncated (length.toNat - Limits.frameMin) behind.length)
              else .ok ⟨kind, request, behind.take (length.toNat - Limits.frameMin)⟩ := by
  have hlong : ¬ (written length version code request behind).length < Limits.frameHeaderBytes := by
    rw [length_written]
    exact Nat.not_lt.mpr (Nat.le_add_left _ _)
  have hlength : lengthField (written length version code request behind) = length :=
    lengthField_be32 length _
  rw [decode, if_neg hlong, hlength]
  cases checkLength length with
  | error e => rfl
  | ok done =>
      simp only [version_written, code_written]
      by_cases hversion : version ≠ Limits.protocolVersion
      · rw [if_pos hversion, if_pos hversion]
      · rw [if_neg hversion, if_neg hversion]
        cases MessageKind.ofCode? code with
        | none => rfl
        | some kind => simp only [request_written, drop_written]

end Written

/-- **A frame arrives as it was sent.** -/
theorem decode_encode (h : f.encode = .ok bytes) : decode bytes = .ok f := by
  obtain ⟨n, rfl, hn, hcheck⟩ := encode_eq_ok h
  have hbody := length_body f
  have hsize : n.toNat - Limits.frameMin = f.payload.length := by omega
  have hwritten : Words.be32 n ++ f.body =
      written n Limits.protocolVersion f.kind.code f.request f.payload := rfl
  simp only [hwritten, decode_written, hcheck, ne_eq, not_true_eq_false, if_false,
    MessageKind.ofCode?_code, hsize, Nat.lt_irrefl, List.take_length]

/-- A frame takes up its payload and sixteen bytes. -/
theorem length_of_encode (h : f.encode = .ok bytes) :
    bytes.length = f.payload.length + Limits.frameHeaderBytes := by
  obtain ⟨n, rfl, -, -⟩ := encode_eq_ok h
  rw [List.length_append, Words.length_be32, length_body]
  simp only [Limits.frameMin, Limits.frameHeaderBytes]
  omega

/-- No two frames begin the same bytes. -/
theorem eq_of_encode {g : Frame} {other tail rest : Bytes} (hf : f.encode = .ok bytes)
    (hg : g.encode = .ok other) (h : bytes ++ tail = other ++ rest) : f = g := by
  have hdecode := decode_encode hf
  have hdecode' := decode_encode hg
  obtain ⟨n, rfl, hn, -⟩ := encode_eq_ok hf
  obtain ⟨m, rfl, hm, -⟩ := encode_eq_ok hg
  have hfields := congrArg lengthField h
  rw [List.append_assoc, List.append_assoc, lengthField_be32, lengthField_be32] at hfields
  subst hfields
  have hlen : (Words.be32 n ++ f.body).length = (Words.be32 n ++ g.body).length := by
    rw [List.length_append, List.length_append, hn, hm]
  rw [(List.append_inj h hlen).1] at hdecode
  exact Except.ok.inj (hdecode.symm.trans hdecode')

/-- A payload that is short enough is encoded. -/
theorem exists_encode (h : f.payload.length ≤ maxPayload) : ∃ bytes, f.encode = .ok bytes :=
  ⟨_, if_neg (Nat.not_lt.mpr h)⟩

end Frame

end SharedSync
