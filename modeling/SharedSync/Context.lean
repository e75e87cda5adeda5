import SharedSync.Authority
import SharedSync.Config
import SharedSync.Gate
import SharedSync.HandleCache
import SharedSync.Pool

/-!
# Context — a process and its authority

A context is one process's view: the gate's decision and, if the fast path is on, a pool of
mapped pages and a cache of handles.  Operations go to an authority `a` in state `s` and ask the
kernel (`map`) for mappings.

* `start` agrees with the authority on whether the fast path is on, and opens the backing file.
* `create` makes or opens an object with one request; that its page cannot be mapped, its handle
  not cached or its type not known is no error.
* `object` finds an object in the cache, or else asks the authority once.
-/

namespace SharedSync

/-- The answer to a creation. -/
structure Created where
  status : Status
  handle : Handle
  slot : Slot
deriving DecidableEq

/-- An object whose state can be read and written. -/
structure SyncObject where
  handle : Handle
  kind : ObjectKind
  block : StateBlock
deriving DecidableEq

/-- What an enabled context keeps. -/
structure Runtime where
  pool : Pool
  cache : HandleCache StateBlock

/-- One process's view of the objects: disabled, or with a runtime. -/
structure Context where
  config : Config
  decision : GateDecision
  runtime : Option Runtime

namespace Runtime

/-- Maps the slot's page and caches its block under the handle. -/
def remember (map : Mapper) (handle : Handle) (kind : ObjectKind) (slot : Slot) (r : Runtime) :
    Outcome Runtime (Option StateBlock) :=
  let shown := r.pool.block map slot
  match shown.result with
  | none => ⟨none, { r with pool := shown.state }, shown.events⟩
  | some block =>
      let added := r.cache.add handle kind block
      ⟨some block, ⟨shown.state, added.state⟩, shown.events ++ added.events⟩

end Runtime

namespace Context

variable {σ : Type}

/-- The fast path is on in this context. -/
def isEnabled (c : Context) : Bool := c.runtime.isSome

/-- The context under a decision, given whether the authority takes part. -/
def openUnder (system : System) (config : Config) (decision : GateDecision)
    (takesPart : Bool) : Outcome Unit (Except SyncError Context) :=
  if !decision.enabled then
    if takesPart then ⟨.error (.configMismatch (.authorityOnly decision)), (), []⟩
    else ⟨.ok { config, decision, runtime := none }, (), [.contextDisabled decision]⟩
  else if !takesPart then ⟨.error (.configMismatch .processOnly), (), []⟩
  else
    match config.backingPath system with
    | .error error => ⟨.error (.system error), (), []⟩
    | .ok path =>
        match Pool.openAt system path with
        | ⟨.error error, (), events⟩ => ⟨.error error, (), events⟩
        | ⟨.ok pool, (), events⟩ =>
            ⟨.ok { config, decision, runtime := some { pool, cache := .standard } }, (),
              events ++ [.contextEnabled path pool.pageSize.bytes]⟩

/-- Opens a context; `answer` is what the kernel says if the gate probes it. -/
def start (a : Authority σ) (system : System) (config : Config) (answer : Futex.Answer)
    (gate : Gate) (s : σ) : Outcome (Gate × σ) (Except SyncError Context) :=
  let decided := gate.decideByProbe config.enabled answer
  let asked := a.create .supportQuery s
  let events := decided.events ++ asked.events
  match asked.result with
  | .error error => ⟨.error error, (decided.state, asked.state), events⟩
  | .ok reply =>
      let opened := openUnder system config decided.result (reply.status ≠ .notImplemented)
      ⟨opened.result, (decided.state, asked.state), events ++ opened.events⟩

/-- The attributes of a request, if any, respect the limits. -/
def validate (request : CreateRequest) : Except AttributesFault Unit :=
  request.attributes.elim (.ok ()) ObjectAttributes.validate

/-- What a runtime does with an object that the authority made or opened. -/
def adopt (map : Mapper) (type : UInt32) (handle : Handle) (slot : Slot) (r : Runtime) :
    Outcome Runtime Unit :=
  match ObjectKind.ofTag? type with
  | none => ⟨(), r, [.unknownTypeCreated type handle]⟩
  | some kind =>
      let kept := r.remember map handle kind slot
      ⟨(), kept.state, kept.events⟩

/-- The handle in a reply to a creation, or why there is none. -/
def createdHandle (reply : Reply) : Except SyncError Handle :=
  if !reply.status.yieldsObject then .error (.authority reply.status)
  else
    match reply.handle with
    | none => .error (.protocol (.noHandle reply.status))
    | some handle => .ok handle

/-- Makes or opens an object with one request, after the limits on its attributes are checked. -/
def create (a : Authority σ) (map : Mapper) (request : CreateRequest) (c : Context) (s : σ) :
    Outcome (Context × σ) (Except SyncError Created) :=
  match c.runtime with
  | none => ⟨.error .disabled, (c, s), []⟩
  | some runtime =>
      match validate request with
      | .error fault => ⟨.error (.invalidAttributes fault), (c, s), []⟩
      | .ok () =>
          let asked := a.create request s
          match asked.result with
          | .error error => ⟨.error error, (c, asked.state), asked.events⟩
          | .ok reply =>
              match createdHandle reply with
              | .error error => ⟨.error error, (c, asked.state), asked.events⟩
              | .ok handle =>
                  let kept := adopt map request.type handle reply.slot runtime
                  ⟨.ok ⟨reply.status, handle, reply.slot⟩,
                    ({ c with runtime := some kept.state }, asked.state),
                    asked.events ++ kept.events ++
                      [.contextCreated handle reply.slot reply.status]⟩

/-- The request that makes a semaphore. -/
def semaphoreRequest (access : AccessMask) (attributes : Option ObjectAttributes)
    (initial max : Int32) : CreateRequest where
  type := ObjectKind.semaphore.tag
  access
  low := initial
  high := max
  attributes

/-- Makes or opens a semaphore, and says so first. -/
def createSemaphore (a : Authority σ) (map : Mapper) (access : AccessMask)
    (attributes : Option ObjectAttributes) (initial max : Int32) (c : Context) (s : σ) :
    Outcome (Context × σ) (Except SyncError Created) :=
  let name := attributes.elim ({} : ObjectAttributes).displayName ObjectAttributes.displayName
  (create a map (semaphoreRequest access attributes initial max) c s).after
    [.creatingSemaphore name initial max]

/-- The object of a handle, if it is cached. -/
def cached? (c : Context) (handle : Handle) : Option SyncObject := do
  let runtime ← c.runtime
  let (kind, block) ← runtime.cache.get? handle
  some { handle, kind, block }

/-- The kind in a reply to a query, or why there is none. -/
def queriedKind (reply : Reply) : Except SyncError ObjectKind :=
  if reply.status ≠ .success then .error (.authority reply.status)
  else
    match ObjectKind.ofTag? reply.type with
    | none => .error (.protocol (.unknownType reply.type))
    | some kind => .ok kind

/-- The object of a handle, from the authority. -/
def fetch (a : Authority σ) (map : Mapper) (handle : Handle) (c : Context) (s : σ) :
    Outcome (Context × σ) (Except SyncError SyncObject) :=
  match c.runtime with
  | none => ⟨.error .disabled, (c, s), []⟩
  | some runtime =>
      let asked := a.query handle s
      match asked.result with
      | .error error => ⟨.error error, (c, asked.state), asked.events⟩
      | .ok reply =>
          match queriedKind reply with
          | .error error => ⟨.error error, (c, asked.state), asked.events⟩
          | .ok kind =>
              let kept := runtime.remember map handle kind reply.slot
              ⟨match kept.result with
                | none => .error (.cannotMap (toString reply.slot))
                | some block => .ok { handle, kind, block },
                ({ c with runtime := some kept.state }, asked.state),
                asked.events ++ kept.events⟩

/-- The object of a handle: from the cache, or else from the authority. -/
def object (a : Authority σ) (map : Mapper) (handle : Handle) (c : Context) (s : σ) :
    Outcome (Context × σ) (Except SyncError SyncObject) :=
  match c.cached? handle with
  | some object => ⟨.ok object, (c, s), []⟩
  | none => fetch a map handle c s

/-- The context as diagnostics show it. -/
def describe (c : Context) : String :=
  "FsyncContext \x7b decision: " ++ c.decision.describe ++ ", enabled: " ++
    toString c.isEnabled ++ ", config: " ++ c.config.describe ++ ", .. \x7d"

end Context

end SharedSync
