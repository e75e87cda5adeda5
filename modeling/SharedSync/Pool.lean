import SharedSync.Directory
import SharedSync.Event
import SharedSync.System

/-!
# Pool — the backing file, page by page

What a process sees of the backing file: mappings of its pages, the state blocks in them, and the
pool that maps a page when a slot on it is first asked for.
-/

namespace SharedSync

/-! ### Mappings and state blocks

A mapping makes `length` bytes of the backing file, from `fileOffset` on, visible at the
addresses from `base` on.  A state block is eight bytes inside a mapping: two words, which for a
semaphore are its count and its maximum.  Whoever reads or writes through a block reads or writes
the file, so all mappings of one file show the same bytes.

Whether a mapping succeeds, and where it lands, is the kernel's answer (`Mapper`). -/

/-- Bytes of the backing file made visible in memory. -/
structure Mapping where
  base : Nat
  fileOffset : Nat
  length : Nat
deriving DecidableEq, Repr

/-- Where the state of an object is seen: in a mapping, at an offset. -/
structure StateBlock where
  mapping : Mapping
  offset : Nat
deriving DecidableEq, Repr

/-- The two words of a state block. -/
structure BlockWords where
  first : UInt32
  second : UInt32
deriving DecidableEq, Repr

namespace BlockWords

/-- A semaphore's count. -/
def count (w : BlockWords) : Int32 := w.first.toInt32

/-- A semaphore's maximum. -/
def max (w : BlockWords) : Int32 := w.second.toInt32

/-- The words as diagnostics show them. -/
def describe (w : BlockWords) : String :=
  "StateBlock \x7b addr: *, words: [" ++ toString w.first ++ ", " ++ toString w.second ++ "] \x7d"

/-- The words of a semaphore as diagnostics show them. -/
def describeSemaphore (w : BlockWords) : String :=
  "SemaphoreState \x7b block: " ++ w.describe ++ " \x7d"

end BlockWords

/-- One of the two words of a block. -/
inductive BlockWord where
  | first
  | second
deriving DecidableEq, Repr

/-- The place of the word in its block. -/
def BlockWord.byteOffset : BlockWord → Nat
  | first => 0
  | second => 4

namespace StateBlock

/-- Where the block is in memory. -/
def address (b : StateBlock) : Nat := b.mapping.base + b.offset

/-- Where the block's bytes are in the backing file. -/
def fileOffset (b : StateBlock) : Nat := b.mapping.fileOffset + b.offset

/-- The whole block lies in pages that hold a byte of the file. -/
def isBacked (b : StateBlock) (page : PageSize) (file : FileContents) : Bool :=
  b.fileOffset + Limits.stateBlockBytes ≤
    (file.size + page.bytes - 1) / page.bytes * page.bytes

/-- One word of the block, as it stands in the file. -/
def word (b : StateBlock) (file : FileContents) (w : BlockWord) : UInt32 :=
  file.word (b.fileOffset + w.byteOffset)

/-- Both words of the block. -/
def words (b : StateBlock) (file : FileContents) : BlockWords :=
  ⟨b.word file .first, b.word file .second⟩

/-- The file once a word is stored through the block. -/
def storeWord (b : StateBlock) (file : FileContents) (w : BlockWord) (value : UInt32) :
    FileContents :=
  file.storeWord (b.fileOffset + w.byteOffset) value

end StateBlock

/-- A part of the file that is to be mapped. -/
structure MapRequest where
  fileOffset : Nat
  length : Nat
deriving DecidableEq, Repr

/-- The kernel's answer to a request for a mapping: its first address. -/
abbrev Mapper := MapRequest → Except SystemError Nat

/-! ### The pool

A pool maps a page of the backing file when a slot on it is first asked for, and keeps it mapped.
The block of slot `s` starts at byte `8 · s` of the file, so its page is `8 · s / pageSize` and
its place there `8 · s % pageSize`.  A page that cannot be mapped stays unmapped and is tried
again the next time. -/

/-- What a pool counted.  The counters are 64-bit words in the program; they are the same as long
as fewer than `2 ^ 64` calls are made. -/
structure PoolMetrics where
  pagesMapped : Nat := 0
  /-- Mappings dropped because another one was published first. -/
  redundantUnmaps : Nat := 0
  mapFailures : Nat := 0
deriving DecidableEq, Repr

/-- The backing file of a process, and the pages of it that are mapped. -/
structure Pool where
  file : OpenFile
  path : Path
  pageSize : PageSize
  pages : Directory (Option Mapping)
  metrics : PoolMetrics := {}

namespace Pool

/-- No page is mapped yet. -/
def emptyPages : Directory (Option Mapping) where
  chunkLength := Limits.pageChunkLength
  chunks := Array.replicate Limits.pageChunks none

/-- A pool over a file that is open already. -/
def ofFile (file : OpenFile) (path : Path) (pageSize : PageSize) : Outcome Unit Pool :=
  ⟨{ file, path, pageSize, pages := emptyPages }, (), [.poolReady path pageSize.bytes]⟩

/-- Opens the backing file, which must exist. -/
def openFile (system : System) (path : Path) : Outcome Unit (Except SyncError OpenFile) :=
  match system.openExisting path with
  | .ok file => ⟨.ok file, (), [.openedBackingFile path]⟩
  | .error error =>
      if error.kind = .notFound then ⟨.error (.backingFileMissing path), (), []⟩
      else ⟨.error (.system error), (), []⟩

/-- A pool over the file at `path`, with pages of the machine's size.  The machine is asked for it
only once the file is open. -/
def openAt (system : System) (path : Path) : Outcome Unit (Except SyncError Pool) :=
  match openFile system path with
  | ⟨.error error, (), events⟩ => ⟨.error error, (), events⟩
  | ⟨.ok file, (), events⟩ =>
      match system.pageSize? with
      | .error error => ⟨.error (.system error), (), events⟩
      | .ok size =>
          let made := ofFile file path size
          ⟨.ok made.result, (), events ++ made.events⟩

/-- The page of a slot and the place of its block there. -/
def locate (p : Pool) (slot : Slot) : Nat × Nat :=
  (slot.byteOffset / p.pageSize.bytes, slot.byteOffset % p.pageSize.bytes)

/-- The page could not be had. -/
def noteFailure (p : Pool) : Pool :=
  { p with metrics := { p.metrics with mapFailures := p.metrics.mapFailures + 1 } }

/-- The block of a slot, whose page is mapped now if it was not before. -/
def block (map : Mapper) (p : Pool) (slot : Slot) : Outcome Pool (Option StateBlock) :=
  let (page, offset) := p.locate slot
  match p.pages.touch page with
  | (none, _) => ⟨none, p.noteFailure, [.slotBeyondDirectory slot page]⟩
  | (some (some mapping), pages) => ⟨some ⟨mapping, offset⟩, { p with pages }, []⟩
  | (some none, pages) =>
      let request : MapRequest := ⟨page * p.pageSize.bytes, p.pageSize.bytes⟩
      match map request with
      | .error error =>
          ⟨none, noteFailure { p with pages }, [.mapFailed page request.fileOffset error]⟩
      | .ok base =>
          let mapping : Mapping := ⟨base, request.fileOffset, request.length⟩
          ⟨some ⟨mapping, offset⟩,
            { p with
              pages := pages.set page (some mapping)
              metrics := { p.metrics with pagesMapped := p.metrics.pagesMapped + 1 } },
            [.mappedPage page]⟩

/-- The pool as diagnostics show it. -/
def describe (p : Pool) : String :=
  "SharedPagePool \x7b path: " ++ p.path.quoted ++ ", page_size: " ++
    toString p.pageSize.bytes ++ ", metrics: PoolMetrics \x7b pages_mapped: " ++
    toString p.metrics.pagesMapped ++ ", redundant_unmaps: " ++
    toString p.metrics.redundantUnmaps ++ ", map_failures: " ++
    toString p.metrics.mapFailures ++ " \x7d, .. \x7d"

end Pool

end SharedSync
