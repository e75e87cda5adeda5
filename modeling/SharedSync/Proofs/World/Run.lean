import Mathlib
import SharedSync.Proofs.Context.Calls

/-!
# World — an authority, its backing file, and the contexts on that file

A `World` is one authority that answers from memory and any number of contexts on its backing
file.  In a step something happens (`Act`): a context is opened, a context makes or looks up an
object, or a word is stored through a view that a look-up gave.  Each step may have its own mapper
and its own fault on the file, so the kernel may refuse any mapping at any time.  All mappings
show the one file that the authority writes, as shared mappings of one file do.

A `Run` records its acts with their answers, the last one first.

* `Sound`: the registry is well-formed and every runtime agrees with it.  `Run.sound`: so it is
  after every run.
* `Act.Stands`: what an act promised.  `Run.stands`: what an act promised stands ever after.
-/

namespace SharedSync

/-- An authority, its backing file, and the contexts that were opened on it. -/
structure World where
  /-- What contexts open when they open the backing file. -/
  file : OpenFile
  authority : MemoryAuthority
  contexts : List Context

namespace World

/-- What happened, with the answer that was given. -/
inductive Act where
  | opened
  | create (context : Nat) (request : CreateRequest) (answer : Except SyncError Created)
  | lookup (context : Nat) (handle : Handle) (answer : Except SyncError SyncObject)
  | cachedLookup (context : Nat) (handle : Handle) (answer : Option SyncObject)
  | store (context : Nat) (object : SyncObject) (word : BlockWord) (value : UInt32)

/-- The act gives the context a view. -/
def Act.Gives (context : Nat) (object : SyncObject) : Act → Prop
  | .lookup i _ (.ok given) => i = context ∧ given = object
  | .cachedLookup i _ (some given) => i = context ∧ given = object
  | _ => False

/-- A past in which some act gave the context this view. -/
def Given (trace : List Act) (context : Nat) (object : SyncObject) : Prop :=
  ∃ act ∈ trace, act.Gives context object

open MemoryAuthority (faulty)

/-- What can happen next. -/
inductive Step (trace : List Act) (w : World) : Act → World → Prop where
  | opened {system config answer gate gate' c m events}
      (start : Context.start MemoryAuthority.authority system config answer gate w.authority =
        ⟨.ok c, (gate', m), events⟩)
      (file : ∀ rt, c.runtime = some rt → rt.pool.file = w.file) :
      Step trace w .opened { w with authority := m, contexts := w.contexts ++ [c] }
  | create {i c fault map request answer c' m events} (context : w.contexts[i]? = some c)
      (call : c.create (faulty fault) map request w.authority = ⟨answer, (c', m), events⟩) :
      Step trace w (.create i request answer)
        { w with authority := m, contexts := w.contexts.set i c' }
  | semaphore {i c fault map access attributes initial max answer c' m events}
      (context : w.contexts[i]? = some c)
      (call : c.createSemaphore (faulty fault) map access attributes initial max w.authority =
        ⟨answer, (c', m), events⟩) :
      Step trace w (.create i (Context.semaphoreRequest access attributes initial max) answer)
        { w with authority := m, contexts := w.contexts.set i c' }
  | lookup {i c fault map handle answer c' m events} (context : w.contexts[i]? = some c)
      (call : c.object (faulty fault) map handle w.authority = ⟨answer, (c', m), events⟩) :
      Step trace w (.lookup i handle answer)
        { w with authority := m, contexts := w.contexts.set i c' }
  | cachedLookup {i c handle} (context : w.contexts[i]? = some c) :
      Step trace w (.cachedLookup i handle (c.cached? handle)) w
  | store {i object word value} (view : Given trace i object) :
      Step trace w (.store i object word value)
        { w with authority := w.authority.mapFile fun f => object.block.storeWord f word value }

/-- What can have happened, from the making of the backing file on. -/
inductive Run : List Act → World → Prop where
  | start {system config firstIndex path file m events}
      (named : config.backingPath system = .ok path)
      (opens : system.openEmpty path = .ok file)
      (made : MemoryAuthority.create system config firstIndex = ⟨.ok m, (), events⟩) :
      Run [] ⟨file, m, []⟩
  | step {trace w act w'} (run : Run trace w) (step : Step trace w act w') : Run (act :: trace) w'

/-! ### Steps, over the registry -/

/-- One context is replaced by what a call left of it. -/
def put (w : World) (i : Nat) (c : Context) (rt : Runtime) (r : Registry) : World :=
  ⟨w.file, ⟨some r⟩, w.contexts.set i { c with runtime := some rt }⟩

/-- What can happen next, over the registry `r`, with what it leaves of the registry. -/
inductive Change (trace : List Act) (w : World) (r : Registry) : Act → World → Registry → Prop where
  | opened {c rt} (enabled : c.runtime = some rt) (agrees : rt.Agrees r) :
      Change trace w r .opened { w with contexts := w.contexts ++ [c] } r
  | create {i c map rt request answer r' rt'} (context : w.contexts[i]? = some c)
      (runtime : c.runtime = some rt) (making : Context.Making r map rt request answer r' rt') :
      Change trace w r (.create i request answer) (w.put i c rt' r') r'
  | lookup {i c map rt handle answer rt'} (context : w.contexts[i]? = some c)
      (runtime : c.runtime = some rt) (finding : Context.Finding r map rt handle answer rt') :
      Change trace w r (.lookup i handle answer) (w.put i c rt' r) r
  | cachedLookup {i c rt handle} (context : w.contexts[i]? = some c)
      (runtime : c.runtime = some rt) :
      Change trace w r (.cachedLookup i handle (c.cached? handle)) w r
  | store {i object word value} (view : Given trace i object) :
      Change trace w r (.store i object word value)
        { w with authority := ⟨some { r with file := object.block.storeWord r.file word value }⟩ }
        { r with file := object.block.storeWord r.file word value }

/-! ### What holds after every step -/

/-- The runtime of the context at this place. -/
def runtime? (w : World) (i : Nat) : Option Runtime := w.contexts[i]?.bind Context.runtime

/-- `r` is the authority's registry, and every context is enabled and agrees with it. -/
structure Sound (w : World) (r : Registry) : Prop where
  authority : w.authority = ⟨some r⟩
  registry : r.WellFormed
  contexts : ∀ (i : Nat) (c : Context), w.contexts[i]? = some c →
    ∃ rt, c.runtime = some rt ∧ rt.Agrees r

/-- No context of `w` forgets anything. -/
def Extends (w w' : World) : Prop :=
  ∀ (i : Nat) (rt : Runtime), w.runtime? i = some rt →
    ∃ rt', w'.runtime? i = some rt' ∧ rt.Extends rt'

variable {trace : List Act} {w w' : World} {r r' : Registry} {act : Act} {i : Nat}
  {c c' : Context} {rt rt' : Runtime}

theorem runtime?_eq (hc : w.contexts[i]? = some c) : w.runtime? i = c.runtime := by
  rw [runtime?, hc, Option.bind_some]

/-- The runtime of every context agrees with the registry. -/
theorem Sound.agrees (hs : w.Sound r) (h : w.runtime? i = some rt) : rt.Agrees r := by
  obtain ⟨c, hc, hrt⟩ := Option.bind_eq_some_iff.mp h
  obtain ⟨rt₀, h₀, ha⟩ := hs.contexts i c hc
  obtain rfl : rt₀ = rt := Option.some.inj (h₀.symm.trans hrt)
  exact ha

theorem Extends.refl (w : World) : Extends w w := fun _ rt h => ⟨rt, h, .refl rt⟩

/-- Only one context is replaced. -/
theorem getElem?_put (hc : w.contexts[i]? = some c) (j : Nat) :
    (w.put i c rt r).contexts[j]? =
      if i = j then some { c with runtime := some rt } else w.contexts[j]? := by
  have hlt : i < w.contexts.length := (List.getElem?_eq_some_iff.mp hc).1
  rw [put, List.getElem?_set]
  by_cases h : i = j
  · rw [if_pos h, if_pos h, if_pos hlt]
  · rw [if_neg h, if_neg h]

theorem runtime?_put_self (hc : w.contexts[i]? = some c) :
    (w.put i c rt r).runtime? i = some rt := by
  rw [runtime?, getElem?_put hc, if_pos rfl]
  rfl

/-- A call that leaves its own runtime in agreement leaves all in agreement. -/
theorem Sound.put (hs : w.Sound r) (hc : w.contexts[i]? = some c) (hr : r'.WellFormed)
    (he : r.Extends r') (ha : rt'.Agrees r') : (w.put i c rt' r').Sound r' := by
  refine ⟨rfl, hr, ?_⟩
  intro j d hd
  rw [getElem?_put hc] at hd
  split at hd
  · cases hd
    exact ⟨rt', rfl, ha⟩
  · obtain ⟨rt, hrt, ha'⟩ := hs.contexts j d hd
    exact ⟨rt, hrt, ha'.mono he⟩

/-- A context that forgets nothing makes the world forget nothing. -/
theorem extends_put (hc : w.contexts[i]? = some c) (hrt : c.runtime = some rt)
    (he : rt.Extends rt') : w.Extends (w.put i c rt' r') := by
  intro j rt₁ h
  by_cases hij : i = j
  · subst hij
    obtain rfl : rt = rt₁ := Option.some.inj (hrt.symm.trans ((runtime?_eq hc).symm.trans h))
    exact ⟨rt', runtime?_put_self hc, he⟩
  · refine ⟨rt₁, ?_, .refl _⟩
    rw [runtime?, getElem?_put hc, if_neg hij]
    exact h

/-- **Every step from a sound world is one of these.** -/
theorem Step.change (hs : w.Sound r) (h : Step trace w act w') :
    ∃ r', Change trace w r act w' r' := by
  cases h with
  | opened start file =>
      -- an opening asks the authority, and leaves it as it was
      rw [hs.authority] at start
      obtain ⟨rfl, rt, hrt, ha⟩ := Context.of_start start
      rw [← hs.authority]
      exact ⟨r, .opened hrt ha⟩
  | @create i c fault map request answer c' m events context call =>
      obtain ⟨rt, hrt, ha⟩ := hs.contexts _ _ context
      obtain ⟨result, r', rt', events', heq, hm⟩ :=
        Context.making_create fault map request hs.registry hrt ha
      rw [hs.authority, heq] at call
      cases call
      exact ⟨r', .create context hrt hm⟩
  | @semaphore i c fault map access attributes initial max answer c' m events context call =>
      obtain ⟨rt, hrt, ha⟩ := hs.contexts _ _ context
      obtain ⟨result, r', rt', events', heq, hm⟩ :=
        Context.making_create fault map (Context.semaphoreRequest access attributes initial max)
          hs.registry hrt ha
      -- a semaphore is made by the call that makes any object
      rw [Context.createSemaphore, hs.authority, heq] at call
      cases call
      exact ⟨r', .create context hrt hm⟩
  | @lookup i c fault map handle answer c' m events context call =>
      obtain ⟨rt, hrt, ha⟩ := hs.contexts _ _ context
      obtain ⟨result, rt', events', heq, hf⟩ :=
        Context.finding_object fault map handle hs.registry hrt ha
      rw [hs.authority, heq] at call
      cases call
      exact ⟨r, .lookup context hrt hf⟩
  | cachedLookup context =>
      obtain ⟨rt, hrt, -⟩ := hs.contexts _ _ context
      exact ⟨r, .cachedLookup context hrt⟩
  | @store i object word value view =>
      refine ⟨{ r with file := object.block.storeWord r.file word value }, ?_⟩
      rw [hs.authority]
      exact .store view

/-! ### Soundness -/

/-- No step puts the registry out of order. -/
theorem Change.wellFormed (hs : w.Sound r) (h : Change trace w r act w' r') : r'.WellFormed := by
  cases h with
  | opened => exact hs.registry
  | create _ _ making => exact making.wellFormed hs.registry
  | lookup => exact hs.registry
  | cachedLookup => exact hs.registry
  | store => exact hs.registry.with_file (Nat.le_of_eq (FileContents.size_storeWord _ _ _).symm)

/-- No step takes an object away. -/
theorem Change.extends_registry (hs : w.Sound r) (h : Change trace w r act w' r') :
    r.Extends r' := by
  cases h with
  | opened => exact .refl r
  | create _ _ making => exact making.extends_registry hs.registry
  | lookup => exact .refl r
  | cachedLookup => exact .refl r
  | store => exact Registry.extends_with_file r _

/-- **Every step keeps the world sound.** -/
theorem Change.sound (hs : w.Sound r) (h : Change trace w r act w' r') : w'.Sound r' := by
  have hr := h.wellFormed hs
  have he := h.extends_registry hs
  cases h with
  | opened enabled agrees =>
      refine ⟨hs.authority, hr, ?_⟩
      intro i d hd
      rw [List.getElem?_append] at hd
      split at hd
      · exact hs.contexts i d hd
      -- behind the contexts that were open stands the new one
      · obtain rfl := List.mem_singleton.mp (List.mem_of_getElem? hd)
        exact ⟨_, enabled, agrees⟩
  | create context runtime making =>
      have ha := hs.agrees ((runtime?_eq context).trans runtime)
      exact hs.put context hr he (making.agrees ha)
  | lookup context runtime finding =>
      have ha := hs.agrees ((runtime?_eq context).trans runtime)
      exact hs.put context hr he (finding.agrees ha)
  | cachedLookup => exact hs
  | store =>
      refine ⟨rfl, hr, ?_⟩
      intro i d hd
      obtain ⟨rt, hrt, ha⟩ := hs.contexts i d hd
      exact ⟨rt, hrt, ha.mono he⟩

/-- **No step makes a context forget.** -/
theorem Change.extends (h : Change trace w r act w' r') : w.Extends w' := by
  cases h with
  | @opened c rt =>
      intro i rt hrt
      obtain ⟨d, hd, hrt'⟩ := Option.bind_eq_some_iff.mp hrt
      refine ⟨rt, ?_, .refl rt⟩
      have hlt := (List.getElem?_eq_some_iff.mp hd).1
      show (w.contexts ++ [c])[i]?.bind Context.runtime = some rt
      rw [List.getElem?_append_left hlt, hd, Option.bind_some, hrt']
  | create context runtime making => exact extends_put context runtime making.extends_runtime
  | lookup context runtime finding => exact extends_put context runtime finding.extends_runtime
  | cachedLookup => exact .refl w
  | store => exact fun i rt hrt => ⟨rt, hrt, .refl rt⟩

/-- An authority that was just made answers from an empty registry. -/
theorem of_create {system : System} {config : Config} {firstIndex : UInt32}
    {m : MemoryAuthority} {events : List Event}
    (h : MemoryAuthority.create system config firstIndex = ⟨.ok m, (), events⟩) :
    ∃ path size, m = ⟨some (.start path size firstIndex)⟩ := by
  unfold MemoryAuthority.create at h
  split at h
  · cases h
  · cases h
    exact ⟨_, _, rfl⟩

/-- **After every run, all is sound.** -/
theorem Run.sound (h : Run trace w) : ∃ r, w.Sound r := by
  induction h with
  | start _ _ made =>
      obtain ⟨path, size, rfl⟩ := of_create made
      exact ⟨_, rfl, Registry.wellFormed_start _ _ _, fun i c hc => absurd hc nofun⟩
  | step _ step ih =>
      obtain ⟨r, hs⟩ := ih
      obtain ⟨r', hc⟩ := step.change hs
      exact ⟨r', hc.sound hs⟩

/-! ### What was promised -/

/-- In context `i` the object is a view of an object of the registry. -/
def Views (w : World) (r : Registry) (i : Nat) (object : SyncObject) : Prop :=
  ∃ rt e, w.runtime? i = some rt ∧ rt.Shows r object e

/-- What the answer of an act said. -/
def Act.Stands (w : World) (r : Registry) : Act → Prop
  | .create _ request (.ok created) =>
      ∃ e ∈ r.objects, created.handle = e.handle ∧ created.slot = e.slot ∧
        ∀ name, Registry.nameOf request = some name → r.find? (some name) = some e
  | .lookup i handle (.ok object) => object.handle = handle ∧ w.Views r i object
  | .cachedLookup i handle (some object) =>
      object.handle = handle ∧ w.Views r i object ∧
        ∃ rt, w.runtime? i = some rt ∧
          rt.cache.get? handle = some (object.kind, object.block)
  | .store i object _ _ => w.Views r i object
  | _ => True

theorem Views.mono {object : SyncObject} (hv : w.Views r i object) (hr : r.Extends r')
    (hw : w.Extends w') : w'.Views r' i object := by
  obtain ⟨rt, e, hrt, hs⟩ := hv
  obtain ⟨rt', hrt', he⟩ := hw i rt hrt
  exact ⟨rt', e, hrt', hs.mono hr he⟩

/-- What an act promised is not taken back. -/
theorem Act.Stands.mono (h : act.Stands w r) (hr : r.Extends r') (hw : w.Extends w') :
    act.Stands w' r' := by
  cases act with
  | opened => trivial
  | create i request answer =>
      cases answer with
      | error => trivial
      | ok created =>
          obtain ⟨e, he, hh, hs, hn⟩ := h
          exact ⟨e, hr.mem e he, hh, hs, fun name hname => hr.find? name e (hn name hname)⟩
  | lookup i handle answer =>
      cases answer with
      | error => trivial
      | ok object => exact ⟨h.1, h.2.mono hr hw⟩
  | cachedLookup i handle answer =>
      cases answer with
      | none => trivial
      | some object =>
          obtain ⟨hh, hv, rt, hrt, hget⟩ := h
          obtain ⟨rt', hrt', he⟩ := hw i rt hrt
          exact ⟨hh, hv.mono hr hw, rt', hrt', he.get? hget⟩
  | store i object word value => exact Views.mono h hr hw

/-- A view that was given is a view ever after. -/
theorem Given.views {object : SyncObject} (hg : Given trace i object)
    (h : ∀ act ∈ trace, act.Stands w r) : w.Views r i object := by
  obtain ⟨act, hact, hgives⟩ := hg
  have hstands := h act hact
  cases act with
  | opened => exact hgives.elim
  | create => exact hgives.elim
  | store => exact hgives.elim
  | lookup j handle answer =>
      cases answer with
      | error => exact hgives.elim
      | ok given =>
          obtain ⟨rfl, rfl⟩ := hgives
          exact hstands.2
  | cachedLookup j handle answer =>
      cases answer with
      | none => exact hgives.elim
      | some given =>
          obtain ⟨rfl, rfl⟩ := hgives
          exact hstands.2.1

/-- What a step promises holds right after it. -/
theorem Change.stands (hs : w.Sound r) (hall : ∀ act ∈ trace, act.Stands w r)
    (h : Change trace w r act w' r') : act.Stands w' r' := by
  have hr := h.extends_registry hs
  have hw := h.extends
  cases h with
  | opened => trivial
  | @create i c map rt request answer r' rt' context runtime making =>
      cases answer with
      | error => trivial
      | ok created => exact making.object
  | @lookup i c map rt handle answer rt' context runtime finding =>
      cases answer with
      | error => trivial
      | ok object =>
          have ha := hs.agrees ((runtime?_eq context).trans runtime)
          obtain ⟨hh, e, hshows⟩ := finding.shows ha
          exact ⟨hh, rt', e, runtime?_put_self context, hshows⟩
  | @cachedLookup i c rt handle context runtime =>
      have hrt := (runtime?_eq context).trans runtime
      have heq := Context.cached?_eq runtime handle
      cases hget : rt.cache.get? handle with
      | none =>
          rw [heq, hget]
          trivial
      | some record =>
          rw [heq, hget]
          obtain ⟨e, he⟩ := (hs.agrees hrt).shows_of_get? hget
          exact ⟨rfl, ⟨rt, e, hrt, he⟩, rt, hrt, hget⟩
  | store view => exact (view.views hall).mono hr hw

/-- **What an act promised stands ever after.** -/
theorem Run.stands (h : Run trace w) : ∃ r, w.Sound r ∧ ∀ act ∈ trace, act.Stands w r := by
  induction h with
  | start named opens made =>
      obtain ⟨r, hs⟩ := (Run.start named opens made).sound
      exact ⟨r, hs, fun act h => absurd h List.not_mem_nil⟩
  | step _ step ih =>
      obtain ⟨r, hs, hall⟩ := ih
      obtain ⟨r', hc⟩ := step.change hs
      refine ⟨r', hc.sound hs, List.forall_mem_cons.mpr ⟨hc.stands hs hall, ?_⟩⟩
      intro act hact
      exact (hall act hact).mono (hc.extends_registry hs) hc.extends

/-- A context can look up whatever it wants. -/
theorem Run.exists_lookup (h : Run trace w) (hc : w.contexts[i]? = some c) (map : Mapper)
    (handle : Handle) : ∃ answer w', Run (.lookup i handle answer :: trace) w' := by
  rcases heq : c.object (faulty none) map handle w.authority with ⟨answer, ⟨c', m⟩, events⟩
  exact ⟨answer, _, h.step (.lookup hc heq)⟩

/-! ### A small run

One context on a new backing file makes a semaphore named `s`, and the kernel maps its page. -/

namespace Small

/-- Configuration and shared memory have their files in the same directory, `/d`. -/
def config : Config where
  enabled := true
  configDir := ⟨[0x2F, 0x64]⟩
  shmDir := ⟨[0x2F, 0x64]⟩

/-- The backing file, `/d/fsync-2`. -/
def path : Path := config.shmDir.join "fsync-2"

/-- A machine with one directory, `/d`, and room for the backing file in it. -/
def system : System where
  inode p := if p = config.configDir then .ok 2 else .error .noEntry
  openExisting p := if p = path then .ok ⟨3⟩ else .error .noEntry
  openEmpty p := if p = path then .ok ⟨3⟩ else .error .noEntry
  setLength _ _ := .ok ()
  pageSize := .usual

/-- A gate that has decided for the fast path. -/
def gate : Gate := ⟨some ⟨true, some true⟩, 1⟩

/-- A runtime that has mapped and cached nothing yet. -/
def runtime : Runtime := ⟨(Pool.ofFile ⟨3⟩ path .usual).result, .standard⟩

/-- The context that the gate and the system let open. -/
def context : Context := ⟨config, ⟨true, some true⟩, some runtime⟩

/-- A registry of nothing, which gives out handles from the first on. -/
def registry : Registry := .start path .usual 0

/-- The world with one context, before anything is made. -/
def opened : World := ⟨⟨3⟩, ⟨some registry⟩, [context]⟩

/-- A semaphore named `s`, which two may enter at first and five at most. -/
def request : CreateRequest :=
  Context.semaphoreRequest ⟨0⟩ (some { name := some "s" }) 2 5

/-- The handle `Handle.first`, with a reserved bit set. -/
def marked : Handle := ⟨5, by decide⟩

/-- Every page is mapped, all to one address. -/
def map : Mapper := fun _ => .ok 65536

/-- What has happened once the semaphore is made. -/
def created : List Act := [.create 0 request (.ok ⟨.success, .first, ⟨0⟩⟩), .opened]

theorem map_ok (request : MapRequest) : ∃ base, map request = .ok base := ⟨_, rfl⟩

theorem backingPath_eq : config.backingPath system = .ok path := by cbv

theorem openExisting_eq : system.openExisting path = .ok ⟨3⟩ := if_pos rfl

theorem openEmpty_eq : system.openEmpty path = .ok ⟨3⟩ := if_pos rfl

/-- The backing file is there, and so are its pages. -/
theorem openUnder_eq :
    Context.openUnder system config ⟨true, some true⟩ true = ⟨.ok context, (),
      [.openedBackingFile path, .poolReady path 4096, .contextEnabled path 4096]⟩ := by
  have hsize : system.pageSize? = .ok .usual := rfl
  have hopen : Pool.openAt system path = ⟨.ok runtime.pool, (),
      [.openedBackingFile path, .poolReady path 4096]⟩ := by
    simp only [Pool.openAt, Pool.openFile, openExisting_eq, hsize]
    rfl
  simp only [Context.openUnder, backingPath_eq, hopen]
  rfl

/-- The authority takes part, so the context is enabled. -/
theorem start_eq :
    Context.start MemoryAuthority.authority system config (.ok .timedOut) gate
      ⟨some registry⟩ = ⟨.ok context, (gate, ⟨some registry⟩),
        [.openedBackingFile path, .poolReady path 4096, .contextEnabled path 4096]⟩ := by
  show (⟨(Context.openUnder system config ⟨true, some true⟩ true).result, _,
    _ ++ (Context.openUnder system config ⟨true, some true⟩ true).events⟩ : Outcome _ _) = _
  rw [openUnder_eq]
  rfl

/-- The backing file is made, with handles counted from any index. -/
theorem create_eq (firstIndex : UInt32) : MemoryAuthority.create system config firstIndex =
    ⟨.ok ⟨some (.start path .usual firstIndex)⟩, (), [.createdBackingFile path]⟩ := by
  have hmade : MemoryAuthority.makeFile system config = .ok (path, .usual) := by
    simp only [MemoryAuthority.makeFile, backingPath_eq, openEmpty_eq, bind, Except.bind]
    rfl
  simp only [MemoryAuthority.create, hmade]

theorem run_opened : Run [.opened] opened := by
  refine .step (.start backingPath_eq openEmpty_eq (create_eq 0)) (.opened start_eq ?_)
  intro rt hrt
  cases hrt
  rfl

/-- The semaphore gets the first handle and the first slot. -/
theorem result_create : (context.create (faulty none) map request ⟨some registry⟩).result =
    .ok ⟨.success, .first, ⟨0⟩⟩ := by
  have hvalid : Context.validate request = .ok () := rfl
  have hreply : (registry.create request).result = .ok ⟨.success, some .first, ⟨0⟩, 1⟩ := by cbv
  simp only [Context.create, context, hvalid, faulty, Outcome.inside, hreply]
  rfl

/-- The semaphore is made, and every handle with its index leads to it in the cache. -/
theorem exists_created : ∃ w c block, Run created w ∧ w.contexts[0]? = some c ∧
    ∀ h, HandleCache.index? h = some 0 → c.cached? h = some ⟨h, .semaphore, block⟩ := by
  have hctx : opened.contexts[0]? = some context := rfl
  obtain ⟨r, hs⟩ := run_opened.sound
  obtain rfl : registry = r := Option.some.inj (congrArg MemoryAuthority.registry hs.authority)
  obtain ⟨rt, hrt, ha⟩ := hs.contexts 0 context hctx
  obtain rfl : runtime = rt := Option.some.inj hrt
  obtain ⟨result, r', rt', events, heq, hm⟩ :=
    Context.making_create none map request hs.registry hrt ha
  obtain rfl : result = .ok ⟨.success, .first, ⟨0⟩⟩ :=
    (congrArg Outcome.result heq).symm.trans result_create
  have hcap : 0 < runtime.cache.capacity := by
    rw [runtime, HandleCache.capacity_standard]
    decide
  have hrec : rt'.cache.record? 0 ≠ none := by
    generalize hanswer : (⟨.success, .first, ⟨0⟩⟩ : Created) = answer at hm
    cases hm with
    | opened => cases hanswer
    | @made e file shown _ _ _ _ _ kept =>
        have hh : e.handle = .first := congrArg Created.handle hanswer.symm
        exact kept.cached 0 (kept.mapped map_ok) (by rw [hh]; rfl) hcap
  obtain ⟨⟨kind, block⟩, hget⟩ := Option.ne_none_iff_exists'.mp hrec
  obtain rfl := ObjectKind.eq_semaphore kind
  refine ⟨_, { context with runtime := some rt' }, block, .step run_opened (.create hctx heq), rfl,
    fun h hi => ?_⟩
  rw [Context.cached?_eq rfl, HandleCache.get?_eq_record?, hi, Option.bind_some, hget]
  rfl

end Small

end World

end SharedSync
