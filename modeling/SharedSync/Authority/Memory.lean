import Std.Data.HashMap
import SharedSync.Authority
import SharedSync.Config
import SharedSync.Pool

/-!
# Authority — in this process

The authority that keeps its objects in memory: a registry over the backing file, and the ways in
which it can be made.
-/

namespace SharedSync

/-! ### The registry

A registry owns the backing file and numbers its objects from zero: object `i` has slot `i` and
the handle of index `firstIndex + i`.  Objects with a name are found again by that exact name; an
empty name is no name.

A create request is checked in this order: known type, bounds `0 ≤ low ≤ high` and `0 < high`,
name already registered, handle left.  Then the object's block is written, and only then is the
object registered, so a failure on the file leaves no object behind. -/

/-- A registered object. -/
structure Entry where
  handle : Handle
  slot : Slot
  kind : ObjectKind
deriving DecidableEq

/-- The reply that names a registered object. -/
def Entry.reply (e : Entry) (status : Status) : Reply where
  status
  handle := some e.handle
  slot := e.slot
  type := e.kind.tag

/-- Where an operation on the backing file fails. -/
inductive FileFault where
  | readLength (error : SystemError)
  | grow (error : SystemError)
  /-- The write fails once `count` bytes are written. -/
  | write (count : Nat) (error : SystemError)
deriving DecidableEq

/-- The backing file and the objects that have a block in it. -/
structure Registry where
  file : FileContents
  path : Path
  pageSize : PageSize
  firstIndex : UInt32
  objects : Array Entry := #[]
  /-- The position of the object with a handle, by the handle's raw value. -/
  byHandle : Std.HashMap UInt32 Nat := ∅
  byName : Std.HashMap String Nat := ∅

namespace Registry

/-- The registry of a backing file that was just made. -/
def start (path : Path) (pageSize : PageSize) (firstIndex : UInt32) : Registry where
  file := .zeros pageSize.bytes
  path
  pageSize
  firstIndex

/-- The name that a request registers. -/
def nameOf (request : CreateRequest) : Option String :=
  (request.attributes.bind ObjectAttributes.name).filter fun name => !name.isEmpty

/-- The counts a semaphore may start with. -/
def boundsOk (request : CreateRequest) : Bool :=
  0 < request.high && 0 ≤ request.low && request.low ≤ request.high

/-- The slot and the handle of the next object, while there are handles left. -/
def issue? (r : Registry) : Option (Slot × Handle) :=
  let index := r.objects.size + r.firstIndex.toNat
  if UInt32.size ≤ index then none
  else (Handle.ofIndex? (UInt32.ofNat index)).map (⟨UInt32.ofNat r.objects.size⟩, ·)

/-- The file length, in whole pages, that holds the block of a slot. -/
def lengthFor (r : Registry) (slot : Slot) : Nat :=
  (slot.byteOffset + Limits.stateBlockBytes + r.pageSize.bytes - 1) / r.pageSize.bytes *
    r.pageSize.bytes

/-- The file with the block of a slot written, grown first if it is too short for it. -/
def writeBlock (r : Registry) (slot : Slot) (request : CreateRequest) (fault : Option FileFault) :
    Except SystemError Unit × FileContents :=
  match fault with
  | some (.readLength error) => (.error error, r.file)
  | some (.grow error) =>
      if r.file.size < r.lengthFor slot then (.error error, r.file)
      else (.ok (), r.file.write slot.byteOffset (block request))
  | some (.write count error) =>
      (.error error, (grown r slot).write slot.byteOffset ((block request).take count))
  | none => (.ok (), (grown r slot).write slot.byteOffset (block request))
where
  block (request : CreateRequest) : Bytes :=
    Words.leInt32 request.low ++ Words.leInt32 request.high
  grown (r : Registry) (slot : Slot) : FileContents :=
    if r.file.size < r.lengthFor slot then r.file.resize (r.lengthFor slot) else r.file

/-- The registry with one more object. -/
def insert (r : Registry) (entry : Entry) (name : Option String) : Registry :=
  let position := r.objects.size
  { r with
    objects := r.objects.push entry
    byHandle := r.byHandle.insert entry.handle.raw position
    byName := match name with
      | none => r.byName
      | some name => r.byName.insert name position }

/-- The object registered under a name. -/
def find? (r : Registry) (name : Option String) : Option Entry := do
  let position ← r.byName[← name]?
  r.objects[position]?

/-- Makes a new object. -/
def register (r : Registry) (request : CreateRequest) (kind : ObjectKind)
    (fault : Option FileFault) : Outcome Registry (Except SyncError Reply) :=
  match r.issue? with
  | none => ⟨.ok (.bare .noMemory), r, []⟩
  | some (slot, handle) =>
      match r.writeBlock slot request fault with
      | (.error error, file) => ⟨.error (.system error), { r with file }, []⟩
      | (.ok (), file) =>
          let entry : Entry := { handle, slot, kind }
          ⟨.ok (entry.reply .success), insert { r with file } entry (nameOf request),
            [.createdObject handle slot kind]⟩

/-- Makes an object, or opens the one of that name; `fault` is what fails on the file. -/
def create (r : Registry) (request : CreateRequest) (fault : Option FileFault := none) :
    Outcome Registry (Except SyncError Reply) :=
  match ObjectKind.ofTag? request.type with
  | none => ⟨.ok (.bare .invalidParameter), r, []⟩
  | some kind =>
      if !boundsOk request then ⟨.ok (.bare .invalidParameter), r, []⟩
      else
        match r.find? (nameOf request) with
        | some entry =>
            if entry.kind ≠ kind then ⟨.ok (.bare .objectTypeMismatch), r, []⟩
            else
              ⟨.ok (entry.reply .objectNameExists), r,
                [.openedObject ((nameOf request).getD "") entry.handle]⟩
        | none => r.register request kind fault

/-- The object of a handle, looked up without changing anything. -/
def query (r : Registry) (handle : Handle) : Reply :=
  match r.byHandle[handle.raw]?.bind fun position => r.objects[position]? with
  | none => .bare .invalidHandle
  | some entry => entry.reply .success

end Registry

/-! ### The authority

An authority that answers from a registry, or one that takes no part and says so to every
request. -/

/-- A registry, or none for an authority that takes no part. -/
structure MemoryAuthority where
  registry : Option Registry

namespace MemoryAuthority

/-- Takes no part. -/
def unsupported : MemoryAuthority := ⟨none⟩

/-- Makes the backing file, or empties the one that is there, with one page of zeros: where it
was made and the size of the page, or why there is none. -/
def makeFile (system : System) (config : Config) : Except SystemError (Path × PageSize) := do
  let path ← config.backingPath system
  let file ← system.openEmpty path
  let size ← system.pageSize?
  system.setLength file size.bytes
  return (path, size)

/-- The authority of a new backing file, which issues handles from `firstIndex` on. -/
def create (system : System) (config : Config) (firstIndex : UInt32) :
    Outcome Unit (Except SyncError MemoryAuthority) :=
  match makeFile system config with
  | .error error => ⟨.error (.system error), (), []⟩
  | .ok (path, size) =>
      ⟨.ok ⟨some (.start path size firstIndex)⟩, (), [.createdBackingFile path]⟩

/-- The number of objects that were made. -/
def objectCount (m : MemoryAuthority) : Nat :=
  (m.registry.map fun r => r.objects.size).getD 0

/-- Where the backing file is. -/
def path? (m : MemoryAuthority) : Option Path := m.registry.map Registry.path

/-- What the backing file holds. -/
def file? (m : MemoryAuthority) : Option FileContents := m.registry.map Registry.file

/-- The authority after its backing file was changed by someone else. -/
def mapFile (m : MemoryAuthority) (change : FileContents → FileContents) : MemoryAuthority :=
  ⟨m.registry.map fun r => { r with file := change r.file }⟩

/-- Answers from the registry; without one, every answer is "not implemented". -/
def authority : Authority MemoryAuthority where
  create request m :=
    match m.registry with
    | none => ⟨.ok (.bare .notImplemented), m, []⟩
    | some registry => (registry.create request).inside fun r => ⟨some r⟩
  query handle m :=
    match m.registry with
    | none => ⟨.ok (.bare .notImplemented), m, []⟩
    | some registry => ⟨.ok (registry.query handle), m, []⟩

end MemoryAuthority

end SharedSync
