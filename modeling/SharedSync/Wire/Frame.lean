import SharedSync.Words
import SharedSync.Limits

/-!
# Wire — frames

A message travels in one frame, numbers most significant byte first:

    length (4) | version (2) | kind (2) | request number (8) | payload

The length counts everything behind itself.  `decode` reads a frame at the front of a buffer and
reports the first check that fails: buffer shorter than a header, length out of range, version,
kind, payload cut off.
-/

namespace SharedSync

/-- What a frame is: one of two requests, or a reply. -/
inductive MessageKind where
  | createObject
  | queryObject
  | reply
deriving DecidableEq, Repr

namespace MessageKind

/-- The kind field of a header. -/
def code : MessageKind → UInt16
  | createObject => 1
  | queryObject => 2
  | reply => 3

/-- The kind of a kind field. -/
def ofCode? (code : UInt16) : Option MessageKind :=
  if code = 1 then some createObject
  else if code = 2 then some queryObject
  else if code = 3 then some reply
  else none

instance : ToString MessageKind where
  toString
    | createObject => "CREATE_FSYNC"
    | queryObject => "QUERY_OBJECT"
    | reply => "REPLY"

/-- A kind is read back from its code. -/
theorem ofCode?_code (kind : MessageKind) : ofCode? kind.code = some kind := by
  cases kind <;> rfl

end MessageKind

/-- The check that a frame fails. -/
inductive FrameError where
  | tooShort
  | lengthTooSmall (length : UInt32)
  | lengthTooLarge (length : UInt32)
  | unknownVersion (version : UInt16)
  | unknownKind (kind : UInt16)
  | payloadTruncated (expected actual : Nat)
  | payloadTooLarge (size : Nat)
deriving DecidableEq, Repr

namespace FrameError

/-- The text that reports the check. -/
def message : FrameError → String
  | tooShort => "frame buffer too short for header"
  | lengthTooSmall n =>
      "len_be " ++ toString n ++ " below minimum " ++ toString Limits.frameMin
  | lengthTooLarge n => "len_be " ++ toString n ++ " exceeds cap " ++ toString Limits.frameMax
  | unknownVersion v => "unknown protocol version " ++ toString v
  | unknownKind k => "unknown message kind " ++ toString k
  | payloadTruncated expected actual =>
      "payload truncated: expected " ++ toString expected ++ " bytes, got " ++ toString actual
  | payloadTooLarge size => "payload of " ++ toString size ++ " bytes does not fit a frame"

end FrameError

/-- A message: its kind, the number of the request it belongs to, and a payload. -/
structure Frame where
  kind : MessageKind
  request : UInt64
  payload : Bytes
deriving DecidableEq

namespace Frame

/-- The longest payload of a frame. -/
def maxPayload : Nat := Limits.frameMax - Limits.frameMin

/-- The sixteen bytes in front of the payload. -/
def header (f : Frame) : Bytes :=
  Words.be32 (UInt32.ofNat (f.payload.length + Limits.frameMin)) ++
    Words.be16 Limits.protocolVersion ++ Words.be16 f.kind.code ++ Words.be64 f.request

/-- The bytes of a frame whose payload is not too long. -/
def encode (f : Frame) : Except FrameError Bytes :=
  if maxPayload < f.payload.length then .error (.payloadTooLarge f.payload.length)
  else .ok (f.header ++ f.payload)

/-- The length field must admit a header and must not exceed the cap. -/
def checkLength (length : UInt32) : Except FrameError Unit :=
  if length.toNat < Limits.frameMin then .error (.lengthTooSmall length)
  else if Limits.frameMax < length.toNat then .error (.lengthTooLarge length)
  else .ok ()

/-- The number at `offset` in `buffer`, `width` bytes, most significant first. -/
def field (buffer : Bytes) (offset width : Nat) : Nat :=
  Words.ofBigEndian ((buffer.drop offset).take width)

/-- The length field at the front of a buffer. -/
def lengthField (buffer : Bytes) : UInt32 := UInt32.ofNat (field buffer 0 4)

/-- The frame at the front of a buffer; bytes behind it are left. -/
def decode (buffer : Bytes) : Except FrameError Frame :=
  if buffer.length < Limits.frameHeaderBytes then .error .tooShort
  else
    match checkLength (lengthField buffer) with
    | .error e => .error e
    | .ok () =>
        let version := UInt16.ofNat (field buffer 4 2)
        if version ≠ Limits.protocolVersion then .error (.unknownVersion version)
        else
          let code := UInt16.ofNat (field buffer 6 2)
          match MessageKind.ofCode? code with
          | none => .error (.unknownKind code)
          | some kind =>
              let size := (lengthField buffer).toNat - Limits.frameMin
              let rest := buffer.drop Limits.frameHeaderBytes
              if rest.length < size then .error (.payloadTruncated size rest.length)
              else
                .ok { kind, request := UInt64.ofNat (field buffer 8 8), payload := rest.take size }

end Frame

end SharedSync
