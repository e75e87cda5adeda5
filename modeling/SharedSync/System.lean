import SharedSync.Errors
import SharedSync.Files
import SharedSync.Limits

/-!
# System — what the machine answers

The library asks the operating system for little: the inode of a directory, an open file, a length
for it, and the size of a page.  A `System` is one set of answers to these questions, and any set
is one: each answer may be a failure of any kind, and none follows from another.  That a directory
can be read says nothing of the file below it, which may be out of reach, or be gone before the
next call.

What the machine says of its pages is read by `PageAnswer.size?`.  Its kernel maps pages on
request, and that answer is given with the request (`Mapper`).
-/

namespace SharedSync

/-! ### Pages -/

/-- A power of two that holds at least one state block. -/
structure PageSize where
  bytes : Nat
  isPowerOfTwo : bytes.isPowerOfTwo
  holdsBlock : Limits.stateBlockBytes ≤ bytes

namespace PageSize

/-- The page size of that many bytes, if there can be one. -/
def ofBytes (bytes : Nat) : Except DimensionError PageSize :=
  if h : 1 <<< bytes.log2 = bytes ∧ Limits.stateBlockBytes ≤ bytes then
    .ok ⟨bytes, ⟨bytes.log2, (Nat.one_shiftLeft _).symm.trans h.1 |>.symm⟩, h.2⟩
  else .error (.pageSize bytes)

/-- The page size of most machines. -/
def usual : PageSize := ⟨4096, ⟨12, rfl⟩, by decide⟩

theorem bytes_pos (size : PageSize) : 0 < size.bytes :=
  Nat.lt_of_lt_of_le (by decide) size.holdsBlock

end PageSize

/-- What a machine says when it is asked for the size of its pages. -/
inductive PageAnswer where
  /-- That many bytes.  No machine has pages of less than `Limits.leastPage`. -/
  | size (size : PageSize) (least : Limits.leastPage ≤ size.bytes)
  /-- A number of bytes that cannot be. -/
  | negative (number : Int64) (isNegative : number < 0)
  /-- Neither a number nor a failure. -/
  | indeterminate
  /-- The question fails. -/
  | failed (error : SystemError)

/-- What most machines say. -/
def PageAnswer.usual : PageAnswer := .size .usual (by decide)

/-- The page size, or the failure that its absence is reported as. -/
def PageAnswer.size? : PageAnswer → Except SystemError PageSize
  | size found _ => .ok found
  | negative number _ => .error (.described .other ("bad page size " ++ toString number))
  | indeterminate => .error (.described .other "page size is indeterminate")
  | failed error => .error error

/-- A page size that was answered is one that a machine has. -/
theorem PageAnswer.least_of_size? {answer : PageAnswer} {size : PageSize}
    (h : answer.size? = .ok size) : Limits.leastPage ≤ size.bytes := by
  cases answer with
  | size found least =>
      cases h
      exact least
  | negative => cases h
  | indeterminate => cases h
  | failed => cases h

/-! ### Answers -/

/-- A file that was opened for reading and writing, known by its inode. -/
structure OpenFile where
  inode : Nat
deriving DecidableEq, Repr

/-- One set of answers of the operating system. -/
structure System where
  /-- The inode of what a path leads to. -/
  inode : Path → Except SystemError Nat
  /-- Opens what exists at a path. -/
  openExisting : Path → Except SystemError OpenFile
  /-- Opens the file at a path, made if it was missing, and empty in either case. -/
  openEmpty : Path → Except SystemError OpenFile
  /-- Gives an open file a length. -/
  setLength : OpenFile → Nat → Except SystemError Unit
  /-- Tells the size of a page. -/
  pageSize : PageAnswer

/-- The size of the machine's pages, or why it is not known. -/
def System.pageSize? (system : System) : Except SystemError PageSize := system.pageSize.size?

end SharedSync
