import SharedSync.Errors

/-!
# Directory — an array in chunks that exist from first touch

A `Directory` stands for one array of `chunkCount * chunkLength` elements.  Its chunks are made
when an element of theirs is first touched, all elements at the default value; a chunk that
exists is never removed and never made again.  An element of a chunk that does not exist is not
visible.

* `get? i` shows an element that is visible;
* `touch i` makes the element's chunk if need be, and shows the element;
* `set i a` replaces a visible element.
-/

namespace SharedSync

/-- One array in chunks, some of which may not exist yet. -/
structure Directory (α : Type) where
  chunkLength : Nat
  chunks : Array (Option (Array α))
  /-- The number of chunks made. -/
  allocated : Nat := 0
  /-- The number of chunks thrown away because another one was published first. -/
  lostRaces : Nat := 0

namespace Directory

variable {α : Type}

/-- A directory without chunks yet. -/
def make (chunkCount chunkLength : Nat) : Except DimensionError (Directory α) :=
  if chunkCount = 0 then .error .noChunks
  else if chunkLength = 0 then .error .emptyChunks
  else .ok { chunkLength, chunks := Array.replicate chunkCount none }

/-- The number of chunks there can be. -/
def chunkCount (d : Directory α) : Nat := d.chunks.size

/-- The number of elements there can be. -/
def capacity (d : Directory α) : Nat := d.chunkCount * d.chunkLength

/-- The chunk of an index and the place in it, if the index is within the capacity. -/
def split (d : Directory α) (index : Nat) : Option (Nat × Nat) :=
  if index / d.chunkLength < d.chunkCount then
    some (index / d.chunkLength, index % d.chunkLength)
  else none

/-- The chunk at a position, if it exists. -/
def chunk? (d : Directory α) (position : Nat) : Option (Array α) := (d.chunks[position]?).join

/-- The element at an index, if it is visible. -/
def get? (d : Directory α) (index : Nat) : Option α :=
  match d.split index with
  | none => none
  | some (position, offset) => (d.chunk? position).bind fun chunk => chunk[offset]?

/-- Makes the chunk at a position unless it exists. -/
def touchChunk [Inhabited α] (d : Directory α) (position : Nat) : Directory α :=
  match d.chunks[position]? with
  | some none =>
      { d with
        chunks := d.chunks.setIfInBounds position (some (Array.replicate d.chunkLength default))
        allocated := d.allocated + 1 }
  | _ => d

/-- The element at an index, whose chunk exists from now on. -/
def touch [Inhabited α] (d : Directory α) (index : Nat) : Option α × Directory α :=
  match d.split index with
  | none => (none, d)
  | some (position, _) =>
      let d := d.touchChunk position
      (d.get? index, d)

/-- Another value for a visible element. -/
def set (d : Directory α) (index : Nat) (value : α) : Directory α :=
  match d.split index with
  | none => d
  | some (position, offset) =>
      { d with
        chunks := d.chunks.modify position fun chunk =>
          chunk.map fun elements => elements.setIfInBounds offset value }

/-- A directory whose first chunk exists. -/
def makeWithFirst [Inhabited α] (chunkCount chunkLength : Nat) :
    Except DimensionError (Directory α) :=
  (make chunkCount chunkLength).map fun d => d.touchChunk 0

/-- The visible elements, in the order of their indices. -/
def toList (d : Directory α) : List α :=
  d.chunks.toList.flatMap fun chunk => (chunk.map Array.toList).getD []

/-- The directory as diagnostics show it. -/
def describe (d : Directory α) : String :=
  "ChunkDirectory \x7b chunk_len: " ++ toString d.chunkLength ++ ", chunk_count: " ++
    toString d.chunkCount ++ ", allocated: " ++ toString d.allocated ++ ", .. \x7d"

end Directory

end SharedSync
