import SharedSync.Directory
import SharedSync.Event
import SharedSync.Limits

/-!
# Cache — what a process knows about its handles

For each handle the cache holds a record: the kind of the object and where its state is.  Records
stand in a directory at the index of their handle, so the low bits of a handle do not matter.  A
record is written once: the first `add` for an index wins, and later ones get what it wrote.
Handles without an index, or with one beyond the directory, are never cached.

The tag of a record is 0 while it is free, `Record.claiming` while its writer is at work, and the
tag of the kind from then on; only then can the record be read.
-/

namespace SharedSync

/-- What the cache holds for one index: a tag, and where the state is. -/
structure Record (α : Type) where
  tag : UInt32 := 0
  block : Option α := none
deriving Inhabited

namespace Record

variable {α : Type}

/-- The tag between claim and publication. -/
def claiming : UInt32 := 0xFFFFFFFF

/-- What a reader sees: nothing until the record is published. -/
def load (r : Record α) : Option (ObjectKind × α) :=
  match ObjectKind.ofTag? r.tag, r.block with
  | some kind, some block => some (kind, block)
  | _, _ => none

/-- A record as its writer leaves it. -/
def published (kind : ObjectKind) (block : α) : Record α := { tag := kind.tag, block := some block }

/-- What its writer leaves is what readers see. -/
theorem load_published (kind : ObjectKind) (block : α) :
    (published kind block).load = some (kind, block) := by
  simp [load, published, ObjectKind.ofTag?_tag]

end Record

/-- The records and what was counted. The counters are 64-bit words in the program; they are the
same as long as fewer than `2 ^ 64` calls are made. -/
structure HandleCache (α : Type) where
  blocks : Directory (Record α)
  publishes : Nat := 0
  lostPublishes : Nat := 0
  overflowSkips : Nat := 0

namespace HandleCache

variable {α : Type}

/-- A cache of `blocks` blocks, the first of which exists. -/
def make (blocks : Nat) : Except DimensionError (HandleCache α) :=
  (Directory.makeWithFirst blocks Limits.recordsPerBlock).map fun blocks => { blocks }

/-- A cache of the usual size. -/
def standard : HandleCache α where
  blocks :=
    ({ chunkLength := Limits.recordsPerBlock,
       chunks := Array.replicate Limits.cacheBlocks none } : Directory (Record α)).touchChunk 0

/-- The number of indices that can be cached. -/
def capacity (c : HandleCache α) : Nat := c.blocks.capacity

/-- Where the record of a handle stands. -/
def index? (handle : Handle) : Option Nat := handle.index?.map UInt32.toNat

/-- Looking up never makes a block. -/
def get? (c : HandleCache α) (handle : Handle) : Option (ObjectKind × α) :=
  match index? handle with
  | none => none
  | some index => (c.blocks.get? index).bind Record.load

/-- There is no record for the handle. -/
def skip (c : HandleCache α) (handle : Handle) :
    Outcome (HandleCache α) (Option (ObjectKind × α)) :=
  ⟨none, { c with overflowSkips := c.overflowSkips + 1 }, [.cacheFull handle c.capacity]⟩

/-- Records the block of a handle unless its record is taken, and shows what it holds then. -/
def add (c : HandleCache α) (handle : Handle) (kind : ObjectKind) (block : α) :
    Outcome (HandleCache α) (Option (ObjectKind × α)) :=
  match index? handle with
  | none => c.skip handle
  | some index =>
      match c.blocks.touch index with
      | (none, _) => c.skip handle
      | (some record, blocks) =>
          if record.tag = 0 then
            ⟨some (kind, block),
              { c with blocks := blocks.set index (.published kind block),
                       publishes := c.publishes + 1 },
              [.cached handle kind]⟩
          else
            ⟨record.load, { c with blocks, lostPublishes := c.lostPublishes + 1 },
              [.alreadyCached handle]⟩

/-- What a cache can be asked for. -/
inductive Call (α : Type) where
  | add (handle : Handle) (kind : ObjectKind) (block : α)
  | lookup (handle : Handle)

/-- The handle that a call is about. -/
def Call.handle : Call α → Handle
  | add handle .. => handle
  | lookup handle => handle

/-- The call may write. -/
def Call.isAdd : Call α → Bool
  | add .. => true
  | lookup _ => false

/-- The answer to a call; a look-up leaves the cache as it is. -/
def answer (c : HandleCache α) : Call α → Outcome (HandleCache α) (Option (ObjectKind × α))
  | .add handle kind block => c.add handle kind block
  | .lookup handle => ⟨c.get? handle, c, []⟩

/-- The cache after calls one after the other. -/
def run (c : HandleCache α) (calls : List (Call α)) : HandleCache α :=
  calls.foldl (fun c call => (c.answer call).state) c

/-- The cache as diagnostics show it. -/
def describe (c : HandleCache α) : String :=
  "HandleCache \x7b capacity: " ++ toString c.capacity ++
    ", metrics: CacheMetrics \x7b blocks_allocated: " ++ toString c.blocks.allocated ++
    ", publishes: " ++ toString c.publishes ++ ", lost_publishes: " ++
    toString c.lostPublishes ++ ", overflow_skips: " ++ toString c.overflowSkips ++ " \x7d \x7d"

end HandleCache

end SharedSync
