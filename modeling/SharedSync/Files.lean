import Std.Data.TreeMap
import SharedSync.Text

/-!
# Files — their names, and what they hold

Paths as the library compares, joins and shows them, and the contents of the one file that all
share.
-/

namespace SharedSync

/-! ### Paths

A path is a byte string, usually UTF-8.  Two paths are the same if they have the same
components: repeated and trailing slashes do not count, and neither does `.` except at the start
of a relative path. -/

/-- A name in the file system, as bytes. -/
structure Path where
  bytes : Bytes
deriving DecidableEq

namespace Path

/-- The separator. -/
def slash : UInt8 := 0x2F

/-- The path of a text. -/
def ofString (s : String) : Path := ⟨Utf8.encode s⟩

/-- The path as text, if it is UTF-8. -/
def text? (p : Path) : Option String := Utf8.decode? p.bytes

/-- The path as diagnostics show it. -/
def display (p : Path) : String := Utf8.decodeLossy p.bytes

/-- The path starts at the root. -/
def isAbsolute (p : Path) : Bool := p.bytes.head? = some slash

/-- The stretches between slashes, the empty ones included. -/
def segments (p : Path) : List Bytes := p.bytes.splitOn slash

/-- What a path is compared by. -/
inductive Component where
  | root
  | current
  | parent
  | name (bytes : Bytes)
deriving DecidableEq

/-- The name of the directory itself. -/
def dot : Bytes := [0x2E]

/-- The name of the directory above. -/
def dots : Bytes := [0x2E, 0x2E]

/-- What a segment behind the first one contributes. -/
def component? (segment : Bytes) : Option Component :=
  if segment.isEmpty || segment = dot then none
  else if segment = dots then some .parent
  else some (.name segment)

/-- What the path comes to once repeated and trailing slashes are dropped. -/
def components (p : Path) : List Component :=
  let start : List Component :=
    if p.isAbsolute then [.root]
    else if p.segments.head? = some dot then [.current]
    else []
  start ++ p.segments.filterMap component?

/-- The paths have the same components. -/
def same (p q : Path) : Bool := p.components = q.components

/-- The file `name` in the directory `p`; the empty path is the working directory. -/
def join (p : Path) (name : String) : Path :=
  let tail := Utf8.encode name
  if p.bytes.isEmpty || p.bytes.getLast? = some slash then ⟨p.bytes ++ tail⟩
  else ⟨p.bytes ++ slash :: tail⟩

/-- The path between quotation marks, as diagnostics show it. -/
def quoted (p : Path) : String := Text.quoted p.display

end Path

/-! ### Contents

A file is a length and the bytes that were written; every other byte is zero, so a file of any
length costs only what was written into it.  Two ways lead into a file:

* through the descriptor: `read`, `write`, `resize`; a write behind the end moves the end;
* through a mapping: `byte`, `word`, `store`; a store never moves the end, and the bytes between
  the end and the end of its page can be stored to and seen, but are not part of the file.

A resize drops every byte behind the smaller of the two lengths, so what a file grows by is zero. -/

/-- The bytes of a file; those that were never written are zero. -/
structure FileContents where
  size : Nat := 0
  written : Std.TreeMap Nat UInt8 := ∅

namespace FileContents

/-- A file of zeros. -/
def zeros (size : Nat) : FileContents := { size }

/-- The byte at an offset, as a mapping shows it. -/
def byte (f : FileContents) (offset : Nat) : UInt8 := f.written.getD offset 0

/-- `count` bytes from an offset on, whatever the length. -/
def bytesAt (f : FileContents) (offset count : Nat) : Bytes :=
  (List.range count).map fun i => f.byte (offset + i)

/-- At most `count` bytes from `offset` on, none of them behind the end. -/
def read (f : FileContents) (offset count : Nat) : Bytes :=
  f.bytesAt offset (min count (f.size - offset))

/-- The bytes from `offset` on are replaced; the length stays. -/
def store (f : FileContents) (offset : Nat) : Bytes → FileContents
  | [] => f
  | b :: rest => store { f with written := f.written.insert offset b } (offset + 1) rest

/-- The file cut or grown to a length; what it grows by is zero. -/
def resize (f : FileContents) (size : Nat) : FileContents :=
  { size, written := f.written.filter fun offset _ => offset < min f.size size }

/-- The bytes from an offset on are replaced; a write behind the end moves the end. -/
def write (f : FileContents) (offset : Nat) (data : Bytes) : FileContents :=
  let grown := if f.size < offset + data.length && !data.isEmpty
    then f.resize (offset + data.length) else f
  grown.store offset data

/-- The 32-bit word at an offset, as a mapping shows it. -/
def word (f : FileContents) (offset : Nat) : UInt32 :=
  UInt32.ofNat (Words.ofLittleEndian (f.bytesAt offset 4))

/-- A 32-bit word stored through a mapping. -/
def storeWord (f : FileContents) (offset : Nat) (value : UInt32) : FileContents :=
  f.store offset (Words.le32 value)

/-- A store never moves the end. -/
@[simp] theorem size_store (f : FileContents) (offset : Nat) (data : Bytes) :
    (f.store offset data).size = f.size := by
  induction data generalizing f offset with
  | nil => rfl
  | cons b rest ih => rw [store, ih]

/-- One byte stored, seen at any offset. -/
theorem byte_insert (f : FileContents) (offset : Nat) (b : UInt8) (i : Nat) :
    byte { f with written := f.written.insert offset b } i =
      if offset = i then b else f.byte i := by
  simp only [byte, Std.TreeMap.getD_insert, Std.LawfulEqOrd.compare_eq_iff_eq]

/-- A store changes the bytes it covers, and no others. -/
theorem byte_store (f : FileContents) (offset : Nat) (data : Bytes) (i : Nat) :
    (f.store offset data).byte i =
      if offset ≤ i then (data[i - offset]?).getD (f.byte i) else f.byte i := by
  induction data generalizing f offset with
  | nil => simp [store]
  | cons b rest ih =>
      rw [store, ih, byte_insert]
      rcases Nat.lt_trichotomy i offset with h | rfl | h
      · simp [Nat.not_le.mpr h, Nat.not_le.mpr (Nat.lt_succ_of_lt h), Nat.ne_of_gt h]
      · rw [if_neg (Nat.not_succ_le_self i), if_pos rfl, if_pos (Nat.le_refl i), Nat.sub_self]
        rfl
      · have e : i - offset = i - (offset + 1) + 1 := by omega
        simp [Nat.le_of_lt h, Nat.succ_le_of_lt h, Nat.ne_of_lt h, e]

/-- A resize keeps what is below both lengths and drops the rest. -/
theorem byte_resize (f : FileContents) (size i : Nat) :
    (f.resize size).byte i = if i < min f.size size then f.byte i else 0 := by
  have h : (f.written.filter fun offset _ => offset < min f.size size)[i]? =
      if i < min f.size size then f.written[i]? else none := by
    simp only [Std.TreeMap.getElem?_filter, Std.TreeMap.getKey_eq]
    cases f.written[i]? with
    | none => simp
    | some b => simp [Option.filter]
  simp only [byte, resize, Std.TreeMap.getD_eq_getD_getElem?, h]
  split <;> rfl

end FileContents

end SharedSync
