import SharedSync.Context

/-!
# Machine — one machine, in memory

The library is written against any `System` and any kernel that maps pages.  Here is one of each to
run it on.  A `FileTree` gives nodes to absolute names; a name is the list of its components with
the last one first, so `[]` is the root.  A path is walked segment by segment, and every segment,
also an empty one or `.`, needs a directory to stand in.  The walk fails at the first segment that
has none, is too long, or is missing.

Only names are kept here.  What a file holds is kept with whoever opened it.  Nothing that is
proved of the library looks at this machine.
-/

namespace SharedSync

/-- The inode of the null device, which no other node has. -/
def nullInode : Nat := 0

/-- What a name can stand for. -/
inductive Node where
  | directory (inode : Nat)
  | file (inode : Nat)
  /-- Opens like a file, but is always empty and cannot be mapped. -/
  | nullDevice
deriving DecidableEq, Repr

/-- The number of a node. -/
def Node.inode : Node → Nat
  | directory inode | file inode => inode
  | nullDevice => nullInode

/-- A file system's names, and where paths that are not absolute start. -/
structure FileTree where
  nodes : List (List Bytes × Node)
  working : List Bytes := []

namespace FileTree

/-- The longest name of one directory entry, in bytes. -/
def maxName : Nat := 255

/-- The length from which on a path is refused, in bytes. -/
def pathBound : Nat := 4096

/-- What a name stands for. -/
def node? (t : FileTree) (name : List Bytes) : Option Node := t.nodes.lookup name

/-- The tree with another node under a name. -/
def set (t : FileTree) (name : List Bytes) (node : Node) : FileTree :=
  { t with nodes := (name, node) :: t.nodes.filter fun entry => entry.1 ≠ name }

/-- The tree without a name. -/
def remove (t : FileTree) (name : List Bytes) : FileTree :=
  { t with nodes := t.nodes.filter fun entry => entry.1 ≠ name }

/-- An inode that no node has. -/
def freshInode (t : FileTree) : Nat := (t.nodes.map fun entry => entry.2.inode).foldl max 0 + 1

/-- Paths can lead through the name. -/
def isDirectory (t : FileTree) (name : List Bytes) : Bool :=
  match t.node? name with
  | some (.directory _) => true
  | _ => false

/-- One segment of a path, walked from `here`; the entry need not exist. -/
def enter (t : FileTree) (here : List Bytes) (segment : Bytes) :
    Except SystemError (List Bytes) :=
  if !t.isDirectory here then .error .notDirectory
  else if segment.isEmpty || segment = Path.dot then .ok here
  else if segment = Path.dots then .ok here.tail
  else if maxName < segment.length then .error .nameTooLong
  else .ok (segment :: here)

/-- The name that `segments` lead to from `here`; every entry on the way exists. -/
def walk (t : FileTree) (here : List Bytes) : List Bytes → Except SystemError (List Bytes)
  | [] => .ok here
  | segment :: rest =>
      match t.enter here segment with
      | .error e => .error e
      | .ok name => if (t.node? name).isSome then t.walk name rest else .error .noEntry

/-- Where the walk along a path starts, or why the path is refused as a whole. -/
def start (t : FileTree) (p : Path) : Except SystemError (List Bytes) :=
  if p.bytes.contains 0 then .error .nulInPath
  else if p.bytes.isEmpty then .error .noEntry
  else if pathBound ≤ p.bytes.length then .error .nameTooLong
  else .ok (if p.isAbsolute then [] else t.working)

/-- What a path leads to. -/
def resolve (t : FileTree) (p : Path) : Except SystemError Node := do
  let name ← t.walk (← t.start p) p.segments
  match t.node? name with
  | none => .error .noEntry
  | some node => .ok node

/-- The inode of what a path leads to. -/
def inode (t : FileTree) (p : Path) : Except SystemError Nat := (t.resolve p).map Node.inode

/-- The path leads to something. -/
def contains (t : FileTree) (p : Path) : Bool := (t.resolve p).isOk

/-- An existing node, opened for reading and writing. -/
def openNode : Node → Except SystemError OpenFile
  | .directory _ => .error .isDirectory
  | node => .ok ⟨node.inode⟩

/-- Opens an existing file for reading and writing. -/
def openExisting (t : FileTree) (p : Path) : Except SystemError OpenFile := do
  openNode (← t.resolve p)

/-- Opens a file for reading and writing and makes it if its directory has none of that name. -/
def openOrCreate (t : FileTree) (p : Path) : Except SystemError (OpenFile × FileTree) := do
  let parent ← t.walk (← t.start p) p.segments.dropLast
  let name ← t.enter parent (p.segments.getLast?.getD [])
  match t.node? name with
  | some node => do return (← openNode node, t)
  | none => return (⟨t.freshInode⟩, t.set name (.file t.freshInode))

/-- The answers of a machine with these files and with pages of the usual size. -/
def system (t : FileTree) : System where
  inode := t.inode
  openExisting := t.openExisting
  openEmpty path := (t.openOrCreate path).map Prod.fst
  setLength file _ := if file.inode = nullInode then .error .invalidArgument else .ok ()
  pageSize := .usual

/-- The tree once an authority has made its backing file. -/
def withBackingFile (t : FileTree) (config : Config) : FileTree :=
  match config.backingPath t.system >>= t.openOrCreate with
  | .error _ => t
  | .ok (_, after) => after

end FileTree

/-! ### Mappings -/

/-- A mapping this long exceeds every address space. -/
def OpenFile.lengthBound : Nat := 0x4000000000000000

/-- A mapping starts at a page of the file and is not too long; the null device has none.  A
mapping that succeeds lands at `base`. -/
def OpenFile.mapper (file : OpenFile) (base : Nat) : Mapper := fun request =>
  if request.fileOffset % PageSize.usual.bytes ≠ 0 then .error .invalidArgument
  else if lengthBound ≤ request.length then .error .cannotAllocate
  else if file.inode = nullInode then .error .noDevice
  else .ok base

/-- The kernel's answers for the pool's file; each mapping lands behind those before it. -/
def Pool.mapper (p : Pool) : Mapper :=
  p.file.mapper ((p.metrics.pagesMapped + 1) * max p.pageSize.bytes PageSize.usual.bytes)

/-- The kernel's answers for the context's backing file. -/
def Context.mapper (c : Context) : Mapper :=
  match c.runtime with
  | none => fun _ => .error .invalidArgument
  | some runtime => runtime.pool.mapper

end SharedSync
