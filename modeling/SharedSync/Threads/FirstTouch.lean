import SharedSync.Pool
import SharedSync.Threads

/-!
# Threads — first touch

Threads that touch a cell of a directory agree on one resource for it: a chunk of elements, or a
mapping of a page.  A thread loads the entry; if it is empty, the thread makes a resource of its
own and exchanges it against the empty entry.  One thread succeeds; any other releases its own
resource and takes the winner's.  Making a chunk succeeds; making a mapping may fail, and then
the call fails.  Every step reads or writes one shared word, or makes or releases one resource.

An element of a directory is in one chunk.  The entry of a page stands itself in a chunk of the
page directory, so a call for the block of a slot touches the chunk, then the page.

A resource is known by a number, which no other resource ever has.
-/

namespace SharedSync.FirstTouch

/-- The dimensions of a directory, and of the pages that its elements stand for. -/
structure Shape where
  chunkCount : Nat
  chunkLength : Nat
  pageBytes : Nat
  chunkLength_pos : 0 < chunkLength
deriving DecidableEq, Repr

/-- The page directory of a pool. -/
def Shape.ofPages (size : PageSize) : Shape :=
  ⟨Limits.pageChunks, Limits.pageChunkLength, size.bytes, by decide⟩

/-- An entry in which a resource is published once. -/
inductive Cell where
  | chunk (position : Nat)
  | page (number : Nat)
deriving DecidableEq, Repr

/-- The resource is a mapping, which the kernel may refuse. -/
def Cell.isPage : Cell → Bool
  | chunk _ => false
  | page _ => true

/-- What a call asks for. -/
inductive Request where
  /-- An element of the directory. -/
  | element (index : Nat)
  /-- The state block of a slot. -/
  | block (slot : Slot)
deriving DecidableEq, Repr

/-- Where an element or a block is: a place in a resource. -/
structure Address where
  resource : Nat
  offset : Nat
deriving DecidableEq, Repr

namespace Request

/-- The page of a slot. -/
def pageOf (shape : Shape) (slot : Slot) : Nat := slot.byteOffset / shape.pageBytes

/-- The element that a request needs. -/
def index (shape : Shape) : Request → Nat
  | element index => index
  | block slot => pageOf shape slot

/-- The chunk that a request touches first, unless it is beyond the directory. -/
def first? (shape : Shape) (request : Request) : Option Cell :=
  let position := request.index shape / shape.chunkLength
  if position < shape.chunkCount then some (.chunk position) else none

/-- The cell that a request touches after another one. -/
def next? (shape : Shape) : Request → Cell → Option Cell
  | block slot, .chunk _ => some (.page (pageOf shape slot))
  | _, _ => none

/-- The cell whose resource holds what is asked for. -/
def target (shape : Shape) : Request → Cell
  | element index => .chunk (index / shape.chunkLength)
  | block slot => .page (pageOf shape slot)

/-- The place in that resource. -/
def offset (shape : Shape) : Request → Nat
  | element index => index % shape.chunkLength
  | block slot => slot.byteOffset % shape.pageBytes

end Request

/-- What there is of one sort of resource, and what was counted.  The counters are 64-bit words in
the program; they are the same as long as fewer than `2 ^ 64` calls are made. -/
structure Stock where
  /-- The resources made and not released. -/
  live : List Nat := []
  published : Nat := 0
  released : Nat := 0
  failed : Nat := 0
deriving DecidableEq, Repr

/-- The entries that all threads see, and what there is behind them. -/
structure Shared where
  /-- The resource published in each cell. -/
  entry : Cell → Option Nat := fun _ => none
  /-- A resource that was never made. -/
  fresh : Nat := 0
  chunks : Stock := {}
  pages : Stock := {}

/-- What a thread is about to do with a cell. -/
inductive Phase where
  | load
  | make
  | publish (own : Nat)
  | countPublished (own : Nat)
  | release (own winner : Nat)
  | countReleased (winner : Nat)
  | countFailed
deriving DecidableEq, Repr

/-- A thread whose call is at a cell. -/
abbrev Thread : Type := Caller Request (Cell × Phase) Address

namespace Shared

/-- The chunks or the pages. -/
def stock (s : Shared) : (isPage : Bool) → Stock
  | false => s.chunks
  | true => s.pages

/-- A change to the chunks or to the pages alone. -/
def change (s : Shared) (isPage : Bool) (f : Stock → Stock) : Shared :=
  match isPage with
  | false => { s with chunks := f s.chunks }
  | true => { s with pages := f s.pages }

/-- A resource was made. -/
def make (s : Shared) (cell : Cell) : Shared :=
  { s.change cell.isPage fun k => { k with live := s.fresh :: k.live } with fresh := s.fresh + 1 }

/-- The resource `own` is now the cell's. -/
def publish (s : Shared) (cell : Cell) (own : Nat) : Shared :=
  { s with entry := fun c => if c = cell then some own else s.entry c }

/-- The resource `own` is gone. -/
def release (s : Shared) (cell : Cell) (own : Nat) : Shared :=
  s.change cell.isPage fun k => { k with live := k.live.erase own }

end Shared

/-- The cell has its resource: on to the next cell, or the call ends. -/
def Thread.gain (shape : Shape) (t : Thread) (request : Request) (cell : Cell) (resource : Nat) :
    Thread :=
  match request.next? shape cell with
  | some next => t.turn request (next, .load)
  | none => t.finish request (some ⟨resource, request.offset shape⟩)

/-- The kernel may refuse a mapping; memory for a chunk is always there. -/
def refused (answer : Bool) (cell : Cell) : Bool := cell.isPage && !answer

/-- The first step of a call: it finds its chunk, or ends beyond the directory. -/
def begin (shape : Shape) (s : Shared) (t : Thread) (request : Request) : Shared × Thread :=
  match request, request.first? shape with
  | _, some cell => (s, t.turn request (cell, .load))
  | .element _, none => (s, t.finish request none)
  | .block _, none =>
      (s.change true fun k => { k with failed := k.failed + 1 }, t.finish request none)

/-- One step of a call, by its phase. -/
def step (shape : Shape) : Program Shared Thread := fun answer s t =>
  match t.current with
  | none =>
      match t.todo with
      | [] => none
      | request :: todo => some (begin shape s { t with todo } request)
  | some (request, cell, phase) =>
      match phase with
      | .load =>
          match s.entry cell with
          | some resource => some (s, t.gain shape request cell resource)
          | none => some (s, t.turn request (cell, .make))
      | .make =>
          if refused answer cell then some (s, t.turn request (cell, .countFailed))
          else some (s.make cell, t.turn request (cell, .publish s.fresh))
      | .publish own =>
          match s.entry cell with
          | none => some (s.publish cell own, t.turn request (cell, .countPublished own))
          | some winner => some (s, t.turn request (cell, .release own winner))
      | .countPublished own =>
          some (s.change cell.isPage fun k => { k with published := k.published + 1 },
            t.gain shape request cell own)
      | .release own winner =>
          some (s.release cell own, t.turn request (cell, .countReleased winner))
      | .countReleased winner =>
          some (s.change cell.isPage fun k => { k with released := k.released + 1 },
            t.gain shape request cell winner)
      | .countFailed =>
          some (s.change cell.isPage fun k => { k with failed := k.failed + 1 },
            t.finish request none)

/-! ### Going away

When a pool goes away, no thread is at a call.  Its pages are unmapped, those of one chunk after
those of another; then its chunks are freed. -/

/-- The chunks that exist, in the order of their positions. -/
def Shared.chunksLeft (shape : Shape) (s : Shared) : List Nat :=
  (List.range shape.chunkCount).filterMap fun position => s.entry (.chunk position)

/-- The pages of a chunk that are mapped; none if the chunk does not exist. -/
def Shared.pagesIn (shape : Shape) (s : Shared) (position : Nat) : List Nat :=
  match s.entry (.chunk position) with
  | none => []
  | some _ => (List.range shape.chunkLength).filterMap fun offset =>
      s.entry (.page (position * shape.chunkLength + offset))

/-- The pages that are mapped, in the order of their numbers. -/
def Shared.pagesLeft (shape : Shape) (s : Shared) : List Nat :=
  (List.range shape.chunkCount).flatMap (s.pagesIn shape)

/-- What is left when the pool has gone. -/
def Shared.drop (shape : Shape) (s : Shared) : Shared :=
  { s with
    chunks := { s.chunks with live := (s.chunksLeft shape).foldl List.erase s.chunks.live }
    pages := { s.pages with live := (s.pagesLeft shape).foldl List.erase s.pages.live } }

/-! ### Races -/

/-- Nothing was touched yet, and the threads are about to make their calls in order. -/
def start (programs : List (List Request)) : Threads Shared Thread :=
  ⟨{}, Caller.start programs⟩

/-- More rounds than a call over two cells takes. -/
def enoughRounds : Nat := 12

/-- `count` threads that make the one call side by side. -/
def race (shape : Shape) (count : Nat) (request : Request) : Threads Shared Thread :=
  Threads.settle (step shape) enoughRounds (start (List.replicate count [request]))

/-- What the ended calls got. -/
def results (c : Threads Shared Thread) : List (Option Address) :=
  c.threads.flatMap fun t => t.ended.map Prod.snd

/-- The number of calls that got an address. -/
def granted (c : Threads Shared Thread) : Nat := ((results c).filter Option.isSome).length

/-- All calls got the same. -/
def agree (c : Threads Shared Thread) : Bool :=
  match results c with
  | [] => true
  | first :: rest => rest.all (· = first)

end SharedSync.FirstTouch
