import SharedSync.Proofs.Authority.Exchange
import SharedSync.Proofs.Wire.Spellings

/-!
# Wire — which create requests fit a frame

Attributes are checked for the length of their name alone.  A frame limits name and descriptor
together, and much below the limits of the length fields.

* `encode_of_room`: a valid request that has room in a frame has its payload.
* `fits_iff`: the requests that fit a frame are the valid ones that have room in it.
* `hasRoom_of_descriptor`: and every valid request with a short descriptor has.
-/

namespace SharedSync

namespace CreateRequest

open ObjectAttributes (lengthBound fixedBytes)

variable {r : CreateRequest} {bytes : Bytes}

/-- The numbers in front of the attributes, five of four bytes each. -/
def frontBytes : Nat := 20

/-- The number of bytes that a request takes in a frame. -/
def payloadLength (r : CreateRequest) : Nat :=
  frontBytes +
    r.attributes.elim 0 fun a => fixedBytes + a.descriptor.length + 2 * a.nameUnits.length

/-- The payload is short enough for a frame. -/
def HasRoom (r : CreateRequest) : Prop := r.payloadLength ≤ Frame.maxPayload

theorem length_front (r : CreateRequest) (length : Nat) : (r.front length).length = frontBytes := by
  simp only [front, List.length_append, Words.length_le32, Words.length_leInt32, frontBytes]

/-- The length counts the front and the block. -/
theorem payloadLength_eq (r : CreateRequest) :
    r.payloadLength = frontBytes + r.block.length := by
  cases hr : r.attributes with
  | none => rw [payloadLength, block_of_none hr, hr]; rfl
  | some a =>
      rw [payloadLength, block_of_some hr, ObjectAttributes.length_block, hr]
      rfl

theorem payloadLength_of_some {a : ObjectAttributes} (h : r.attributes = some a) :
    r.payloadLength =
      frontBytes + (fixedBytes + a.descriptor.length + 2 * a.nameUnits.length) := by
  rw [payloadLength, h]
  rfl

theorem length_of_encode (h : r.encode = .ok bytes) : bytes.length = r.payloadLength := by
  obtain ⟨-, rfl⟩ := encode_eq_ok h
  rw [List.length_append, length_front, payloadLength_eq]

/-- A valid request that has room has its payload. -/
theorem encode_of_room (valid : r.Valid) (room : r.HasRoom) :
    r.encode = .ok (r.front r.block.length ++ r.block) := by
  refine encode_of_valid valid ?_
  have hlength := r.payloadLength_eq
  have hmax : Frame.maxPayload < lengthBound := by decide
  unfold HasRoom at room
  omega

/-- **A request fits a frame if it is valid and has room there.** -/
theorem fits_iff : (Request.create r).Fits ↔ r.Valid ∧ r.HasRoom := by
  constructor
  · rintro ⟨bytes, hencode, hle⟩
    refine ⟨valid_of_encode hencode, ?_⟩
    rw [HasRoom, ← length_of_encode hencode]
    exact hle
  · rintro ⟨valid, room⟩
    have hencode := encode_of_room valid room
    refine ⟨_, hencode, ?_⟩
    rw [length_of_encode hencode]
    exact room

/-- The longest descriptor that has room beside every valid name. -/
def safeDescriptor : Nat :=
  Frame.maxPayload - frontBytes - fixedBytes - 2 * Limits.maxNameUnits

/-- **Beside a descriptor that is not too long, every valid name has room.** -/
theorem hasRoom_of_descriptor (valid : r.Valid)
    (short : ∀ a, r.attributes = some a → a.descriptor.length ≤ safeDescriptor) : r.HasRoom := by
  have hsum : frontBytes + (fixedBytes + safeDescriptor + 2 * Limits.maxNameUnits) =
      Frame.maxPayload := by decide
  unfold HasRoom
  cases hr : r.attributes with
  | none =>
      rw [payloadLength, hr]
      decide
  | some a =>
      have name := ObjectAttributes.validate_eq_ok_iff.mp (valid a hr)
      have descriptor := short a hr
      rw [payloadLength_of_some hr]
      omega

example : safeDescriptor = 982994 := by decide

namespace Small

/-- A request for an object without a name. -/
def described (descriptor : Bytes) : CreateRequest := { attributes := some { descriptor } }

variable (descriptor : Bytes)

theorem payloadLength_described : (described descriptor).payloadLength = descriptor.length + 36 := by
  have hunits : ObjectAttributes.nameUnits { descriptor } = [] := rfl
  rw [payloadLength_of_some rfl, hunits, List.length_nil, frontBytes, fixedBytes]
  show 20 + (16 + descriptor.length + 2 * 0) = descriptor.length + 36
  omega

theorem valid_described : (described descriptor).Valid := by
  rintro a ⟨⟩
  rw [ObjectAttributes.validate_eq_ok_iff]
  exact Nat.zero_le _

/-- A descriptor of as many bytes as a frame has behind its length field. -/
def bulky : CreateRequest := described (List.replicate 1048576 0)

theorem payloadLength_bulky : bulky.payloadLength = 1048612 := by
  rw [bulky, payloadLength_described, List.length_replicate]

/-- It has a payload all the same. -/
theorem encode_bulky :
    bulky.encode = .ok (bulky.front bulky.block.length ++ bulky.block) := by
  refine encode_of_valid (valid_described _) ?_
  have hlength := payloadLength_eq bulky
  rw [payloadLength_bulky, frontBytes] at hlength
  have hbound : lengthBound = 4294967296 := rfl
  omega

end Small

end CreateRequest

end SharedSync
