import SharedSync.Limits
import SharedSync.Object.Handle
import SharedSync.Words

/-!
# Objects — flags and attributes

What a request says of the object it makes or opens, and the named bits in it.
-/

namespace SharedSync

/-! ### Flags

Both are 32-bit words of which some bits have names and all are carried.  A `FlagTable` lists the
names in order; a name may stand for several bits.  `FlagTable.split` lists the names that hold
in a word, each only if it adds a bit to those before it, and the bits that no listed name
accounts for. -/

/-- A family of named bit patterns, and the name of the family. -/
structure FlagTable where
  label : String
  entries : List (String × UInt32)

namespace Flags

/-- All bits of `b` are set in `a`. -/
def contains (a b : UInt32) : Bool := a &&& b = b

/-- Some bit of `b` is set in `a`. -/
def intersects (a b : UInt32) : Bool := a &&& b ≠ 0

/-- The bits of `a` that are not in `b`. -/
def without (a b : UInt32) : UInt32 := a &&& ~~~b

/-- Every one of the 32 bits is set. -/
def isAll (a : UInt32) : Bool := a = 0xFFFFFFFF

end Flags

namespace FlagTable

/-- One step of the walk through the table: the names so far, in reverse, and the bits not yet
accounted for. -/
def splitStep (word : UInt32) (sofar : List (String × UInt32) × UInt32)
    (entry : String × UInt32) : List (String × UInt32) × UInt32 :=
  if Flags.contains word entry.2 && Flags.intersects sofar.2 entry.2 then
    (entry :: sofar.1, Flags.without sofar.2 entry.2)
  else sofar

/-- The names that hold in `word`, in order, and the bits left over. -/
def split (t : FlagTable) (word : UInt32) : List (String × UInt32) × UInt32 :=
  let (names, rest) := t.entries.foldl (splitStep word) ([], word)
  (names.reverse, rest)

/-- The bits that a name stands for. -/
def find? (t : FlagTable) (name : String) : Option UInt32 := t.entries.lookup name

/-- The family's name with the names that hold, and the bits left over as a number. -/
def describe (t : FlagTable) (word : UInt32) : String :=
  let (names, rest) := t.split word
  let parts := names.map Prod.fst ++
    (if rest ≠ 0 || names.isEmpty then [Text.marked 1 rest.toNat] else [])
  t.label ++ "(" ++ String.intercalate " | " parts ++ ")"

end FlagTable

/-- The rights requested for a new handle. -/
structure AccessMask where
  bits : UInt32
deriving DecidableEq, Repr

/-- The named rights, in the order in which they are shown. -/
def AccessMask.table : FlagTable where
  label := "AccessMask"
  entries :=
    [("QUERY_STATE", 0x1), ("MODIFY_STATE", 0x2), ("DELETE", 0x10000),
     ("READ_CONTROL", 0x20000), ("WRITE_DAC", 0x40000), ("WRITE_OWNER", 0x80000),
     ("SYNCHRONIZE", 0x100000), ("STANDARD_RIGHTS_REQUIRED", 0xF0000),
     ("SEMAPHORE_ALL_ACCESS", 0x1F0003)]

/-- The flags of an object's attributes. -/
structure ObjectFlags where
  bits : UInt32
deriving DecidableEq, Repr

/-- The named flags, in the order in which they are shown. -/
def ObjectFlags.table : FlagTable where
  label := "ObjectFlags"
  entries :=
    [("INHERIT", 0x2), ("PERMANENT", 0x10), ("EXCLUSIVE", 0x20), ("CASE_INSENSITIVE", 0x40),
     ("OPENIF", 0x80), ("OPENLINK", 0x100)]

/-! ### Attributes

Name, root directory, flags and security descriptor of an object that is created or opened.  On
the wire, all numbers least significant byte first:

    root | flags | descriptor length | name length | descriptor | name in UTF-16

Lengths count bytes, so the name's is even.  A root of zero is no root, and an empty name is no
name; bytes behind the name are left unread. -/

/-- What a request says of an object besides its type and counts. -/
structure ObjectAttributes where
  root : Option Handle := none
  flags : ObjectFlags := ⟨0⟩
  /-- Without a name the object is anonymous. -/
  name : Option String := none
  /-- Opaque to every party but the authority. -/
  descriptor : Bytes := []
deriving DecidableEq

/-- Why attributes cannot be sent. -/
inductive AttributesFault where
  | nameTooLong (units : Nat)
  | descriptorTooLarge
  | blockTooLarge
  | described (detail : String)
deriving DecidableEq, Repr

namespace AttributesFault

/-- The text that reports the fault. -/
def detail : AttributesFault → String
  | nameTooLong units =>
      "name is " ++ toString units ++ " UTF-16 units, limit is " ++ toString Limits.maxNameUnits
  | descriptorTooLarge => "security descriptor too large"
  | blockTooLarge => "attribute block too large"
  | described detail => detail

end AttributesFault

namespace ObjectAttributes

/-- Bytes in front of the descriptor. -/
def fixedBytes : Nat := 16

/-- The number of values of a 32-bit length field. -/
def lengthBound : Nat := UInt32.size

/-- The name in UTF-16; an absent name has no units. -/
def nameUnits (a : ObjectAttributes) : List UInt16 := Utf16.encode (a.name.getD "")

/-- The name as diagnostics show it. -/
def displayName (a : ObjectAttributes) : String := a.name.getD "<no name>"

/-- The limit that holds however the attributes travel. -/
def validate (a : ObjectAttributes) : Except AttributesFault Unit :=
  if Limits.maxNameUnits < a.nameUnits.length then .error (.nameTooLong a.nameUnits.length)
  else .ok ()

/-- The wire form, whether or not it respects the limits. -/
def block (a : ObjectAttributes) : Bytes :=
  Words.le32 (Handle.rawOr0 a.root) ++ Words.le32 a.flags.bits ++
    Words.le32 (UInt32.ofNat a.descriptor.length) ++
    Words.le32 (UInt32.ofNat (2 * a.nameUnits.length)) ++
    (a.descriptor ++ Utf16.toBytes a.nameUnits)

/-- The wire form of attributes that respect the limits. -/
def encode (a : ObjectAttributes) : Except AttributesFault Bytes :=
  match a.validate with
  | .error fault => .error fault
  | .ok () =>
      if lengthBound ≤ a.descriptor.length then .error .descriptorTooLarge else .ok a.block

/-- The name whose bytes are `bs`, if there is one; nothing if they are not UTF-16. -/
def readName? (bs : Bytes) : Option (Option String) :=
  if bs.isEmpty then some none else (Utf16.decode? (Utf16.ofBytes bs)).map some

/-- The attributes at the front of a buffer. -/
def decode? (src : Bytes) : Option ObjectAttributes := do
  let (root, cursor) ← (Cursor.ofBytes src).word?
  let (flags, cursor) ← cursor.word?
  let (descriptorLength, cursor) ← cursor.word?
  let (nameLength, cursor) ← cursor.word?
  if nameLength.toNat % 2 ≠ 0 then none
  else
    let (descriptor, cursor) ← cursor.take? descriptorLength.toNat
    let (nameBytes, _) ← cursor.take? nameLength.toNat
    let name ← readName? nameBytes
    some { root := Handle.ofRaw? root, flags := ⟨flags⟩, name, descriptor }

end ObjectAttributes

end SharedSync
