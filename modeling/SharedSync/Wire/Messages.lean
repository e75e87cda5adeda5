import SharedSync.Object.Attributes
import SharedSync.Object.Status

/-!
# Wire — requests and replies

The payloads of the three kinds of frames.
-/

namespace SharedSync

/-! ### Requests

The payload of a create request is five numbers, least significant byte first, and the block of
attributes:

    type | access | low | high | block length | attributes

A length of zero means no attributes, which is not the same as empty attributes.  No byte may
stand behind the block.  The payload of a query is the handle. -/

/-- A request to make or open an object. -/
structure CreateRequest where
  type : UInt32 := 1
  access : AccessMask := ⟨0⟩
  low : Int32 := 0
  high : Int32 := 0
  attributes : Option ObjectAttributes := none
deriving DecidableEq

namespace CreateRequest

/-- The request that only asks whether the authority takes part: it names no type. -/
def supportQuery : CreateRequest := { type := 0 }

/-- The payload of a create request. -/
def encode (r : CreateRequest) : Except AttributesFault Bytes :=
  match r.attributes.elim (.ok []) ObjectAttributes.encode with
  | .error fault => .error fault
  | .ok block =>
      if ObjectAttributes.lengthBound ≤ block.length then .error .blockTooLarge
      else
        .ok (Words.le32 r.type ++ Words.le32 r.access.bits ++ Words.leInt32 r.low ++
          Words.leInt32 r.high ++ Words.le32 (UInt32.ofNat block.length) ++ block)

/-- The attributes in the next `length` bytes. -/
def readAttributes? (length : Nat) (cursor : Cursor) :
    Option (Option ObjectAttributes × Cursor) :=
  if length = 0 then some (none, cursor)
  else do
    let (block, cursor) ← cursor.take? length
    let attributes ← ObjectAttributes.decode? block
    some (some attributes, cursor)

/-- The create request that a payload is, if it is one from end to end. -/
def decode? (src : Bytes) : Option CreateRequest := do
  let (type, cursor) ← (Cursor.ofBytes src).word?
  let (access, cursor) ← cursor.word?
  let (low, cursor) ← cursor.signed?
  let (high, cursor) ← cursor.signed?
  let (length, cursor) ← cursor.word?
  let (attributes, cursor) ← readAttributes? length.toNat cursor
  if cursor.remaining ≠ 0 then none
  else some { type, access := ⟨access⟩, low, high, attributes }

end CreateRequest

namespace Query

/-- The payload of a query. -/
def encode (handle : Handle) : Bytes := Words.le32 handle.raw

/-- The handle that a payload asks for. -/
def decode? (src : Bytes) : Option Handle := (Words.readLe32? src).bind Handle.ofRaw?

theorem decode?_encode (handle : Handle) : decode? (encode handle) = some handle := by
  rw [decode?, encode, Words.readLe32?_le32, Option.bind_some, Handle.ofRaw?_raw]

end Query

/-! ### Replies

Four numbers of four bytes each, least significant byte first: status, handle, slot, type.  A
handle of zero means that the reply names no object. -/

/-- An answer: the verdict, and the object if there is one. -/
structure Reply where
  status : Status
  handle : Option Handle := none
  slot : Slot := ⟨0⟩
  type : UInt32 := 0
deriving DecidableEq

namespace Reply

/-- A status and nothing else. -/
def bare (status : Status) : Reply := { status }

/-- The length of every reply. -/
def bytes : Nat := 16

/-- The payload of a reply. -/
def encode (r : Reply) : Bytes :=
  Words.le32 r.status.code ++ Words.le32 (Handle.rawOr0 r.handle) ++ Words.le32 r.slot.number ++
    Words.le32 r.type

/-- The reply that sixteen bytes are. -/
def decode? (src : Bytes) : Option Reply :=
  if src.length ≠ bytes then none
  else do
    let (status, cursor) ← (Cursor.ofBytes src).word?
    let (handle, cursor) ← cursor.word?
    let (slot, cursor) ← cursor.word?
    let (type, _) ← cursor.word?
    some { status := Status.ofCode status, handle := Handle.ofRaw? handle, slot := ⟨slot⟩, type }

end Reply

end SharedSync
