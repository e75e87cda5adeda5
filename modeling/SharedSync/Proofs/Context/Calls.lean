import SharedSync.Authority.Memory
import SharedSync.Proofs.Context.Runtimes

/-!
# Context — what a call does, over a registry

An enabled context calls an authority that answers from the registry `r`; operations on the file
may fail as `fault` says, and mappings as `map` says.  `Making` and `Finding` list the ways in
which the two calls end, with what they leave of the registry and of the runtime `rt`.

* `making_create`, `finding_object`: every call ends in one of these ways.
* `Making.agrees`, `Finding.agrees`: the runtime still agrees with the registry.
* `of_start`: a context that was just opened is enabled and knows nothing yet.
-/

namespace SharedSync

open FileContents (KeepsBelow)
open Limits (stateBlockBytes)

/-- The authority, when `fault` happens to its file. -/
def MemoryAuthority.faulty (fault : Option FileFault) : Authority MemoryAuthority where
  create request m :=
    match m.registry with
    | none => ⟨.ok (.bare .notImplemented), m, []⟩
    | some registry => (registry.create request fault).inside fun r => ⟨some r⟩
  query := MemoryAuthority.authority.query

theorem MemoryAuthority.faulty_none :
    MemoryAuthority.faulty none = MemoryAuthority.authority := rfl

namespace Context

open Registry (IsValid IsNext Holds Creation)
open SharedSync.Runtime (Agrees Extends Shows Remembered)

variable {r r' : Registry} {rt rt' : Runtime} {c : Context} {map : Mapper}
  {request : CreateRequest} {handle : Handle}

/-! ### Creating -/

/-- The ways in which a creation can end. -/
inductive Making (r : Registry) (map : Mapper) (rt : Runtime) (request : CreateRequest) :
    Except SyncError Created → Registry → Runtime → Prop where
  | denied {error file} (kept : KeepsBelow (r.objects.size * stateBlockBytes) r.file file) :
      Making r map rt request (.error error) { r with file } rt
  | opened {e shown rt'} (found : r.find? (Registry.nameOf request) = some e)
      (kept : Remembered r map rt e shown rt') :
      Making r map rt request (.ok ⟨.objectNameExists, e.handle, e.slot⟩) r rt'
  | made {e file shown rt'} (new : r.find? (Registry.nameOf request) = none)
      (next : IsNext { r with file } e)
      (below : KeepsBelow (r.objects.size * stateBlockBytes) r.file file)
      (holds : Holds file e.slot request)
      (kept : Remembered (Registry.insert { r with file } e (Registry.nameOf request)) map rt e
        shown rt') :
      Making r map rt request (.ok ⟨.success, e.handle, e.slot⟩)
        (Registry.insert { r with file } e (Registry.nameOf request)) rt'

/-- How a context treats the object of a creation that gave it one. -/
theorem adopt_eq (hv : IsValid request) (handle : Handle) (slot : Slot) :
    (adopt map request.type handle slot rt).state =
      (rt.remember map handle .semaphore slot).state := by
  rw [adopt, hv.1]

/-- **A creation ends in one of these ways.** -/
theorem making_create (fault : Option FileFault) (map : Mapper) (request : CreateRequest)
    (hr : r.WellFormed) (hc : c.runtime = some rt) (ha : Agrees r rt) :
    ∃ result r' rt' events,
      c.create (MemoryAuthority.faulty fault) map request ⟨some r⟩ =
        ⟨result, ({ c with runtime := some rt' }, ⟨some r'⟩), events⟩ ∧
      Making r map rt request result r' rt' := by
  have hself : c = { c with runtime := some rt } := by rw [← hc]
  unfold create
  simp only [hc]
  cases validate request with
  | error fault => exact ⟨_, r, rt, _, by rw [← hself], .denied (.refl _ _)⟩
  | ok done =>
      have hcreate := Registry.creation_create r request fault
      rcases heq : r.create request fault with ⟨result, r', events⟩
      rw [heq] at hcreate
      have hgrow := hcreate.extended hr
      simp only [MemoryAuthority.faulty, heq, Outcome.inside]
      -- only the last two ways yield an object, and a context adopts no other reply
      cases hcreate with
      | invalid => exact ⟨_, _, rt, _, by rw [← hself]; rfl, .denied (.refl _ _)⟩
      | exhausted => exact ⟨_, _, rt, _, by rw [← hself]; rfl, .denied (.refl _ _)⟩
      | failed kept => exact ⟨_, _, rt, _, by rw [← hself], .denied kept⟩
      | opened valid found =>
          have hrem := ha.remembered (Registry.find?_mem found) map .semaphore
          rw [← adopt_eq valid] at hrem
          exact ⟨_, _, _, _, rfl, .opened found hrem⟩
      | made valid new next kept holds =>
          have ha' := ha.mono hgrow
          have hrem := ha'.remembered (Registry.mem_insert.mpr (.inr rfl)) map .semaphore
          rw [← adopt_eq valid] at hrem
          exact ⟨_, _, _, _, rfl, .made new next kept holds hrem⟩

variable {result : Except SyncError Created}

/-- Making an object keeps the registry in order. -/
theorem Making.wellFormed (hr : r.WellFormed) (h : Making r map rt request result r' rt') :
    r'.WellFormed := by
  cases h with
  | denied kept => exact hr.with_file kept.size_le
  | opened => exact hr
  | made _ next below => exact (hr.with_file below.size_le).insert next _

/-- The runtime that made an object agrees with the registry that has it. -/
theorem Making.agrees (ha : Agrees r rt) (h : Making r map rt request result r' rt') :
    Agrees r' rt' := by
  cases h with
  | denied => exact ha.mono ⟨fun _ he => he, fun _ _ he => he⟩
  | opened _ kept => exact kept.agrees
  | made _ _ _ _ kept => exact kept.agrees

/-- Making an object makes no runtime forget. -/
theorem Making.extends_runtime (h : Making r map rt request result r' rt') : Extends rt rt' := by
  cases h with
  | denied => exact .refl rt
  | opened _ kept => exact kept.extended
  | made _ _ _ _ kept => exact kept.extended

/-- Making an object takes none away. -/
theorem Making.extends_registry (hr : r.WellFormed) (h : Making r map rt request result r' rt') :
    r.Extends r' := by
  cases h with
  | denied => exact ⟨fun _ he => he, fun _ _ he => he⟩
  | opened => exact .refl r
  | made new next below => exact Registry.extends_insert hr below.size_le new

/-- Words of objects that were there are as they were. -/
theorem Making.word_eq (hr : r.WellFormed) (h : Making r map rt request result r' rt') {e : Entry}
    (he : e ∈ r.objects) (word : BlockWord) :
    r'.file.word (e.slot.byteOffset + word.byteOffset) =
      r.file.word (e.slot.byteOffset + word.byteOffset) := by
  cases h with
  | denied kept => exact hr.word_eq_of_keepsBelow kept he word
  | opened => rfl
  | made _ _ below => exact hr.word_eq_of_keepsBelow below he word

/-- A creation that succeeds gives an object of the registry, under the name it asked for. -/
theorem Making.object {created : Created} (h : Making r map rt request (.ok created) r' rt') :
    ∃ e ∈ r'.objects, created.handle = e.handle ∧ created.slot = e.slot ∧
      ∀ name, Registry.nameOf request = some name → r'.find? (some name) = some e := by
  cases h with
  | opened found => exact ⟨_, Registry.find?_mem found, rfl, rfl, fun name hn => hn ▸ found⟩
  | made new =>
      refine ⟨_, Registry.mem_insert.mpr (.inr rfl), rfl, rfl, ?_⟩
      intro name hn
      rw [hn]
      exact Registry.find?_insert_self _ _ name

/-! ### Finding -/

/-- The ways in which a look-up can end. -/
inductive Finding (r : Registry) (map : Mapper) (rt : Runtime) (handle : Handle) :
    Except SyncError SyncObject → Runtime → Prop where
  | cached {kind block} (h : rt.cache.get? handle = some (kind, block)) :
      Finding r map rt handle (.ok ⟨handle, kind, block⟩) rt
  | unknown (h : rt.cache.get? handle = none) (hn : ∀ e ∈ r.objects, e.handle ≠ handle) :
      Finding r map rt handle (.error (.authority .invalidHandle)) rt
  | unmapped {e rt'} (he : e ∈ r.objects) (hh : e.handle = handle)
      (kept : Remembered r map rt e none rt') :
      Finding r map rt handle (.error (.cannotMap (toString e.slot))) rt'
  | fetched {e block rt'} (he : e ∈ r.objects) (hh : e.handle = handle)
      (kept : Remembered r map rt e (some block) rt') :
      Finding r map rt handle (.ok ⟨handle, .semaphore, block⟩) rt'

/-- What a context finds is what its cache has, under the handle it was asked for. -/
theorem cached?_eq (hc : c.runtime = some rt) (handle : Handle) :
    c.cached? handle = (rt.cache.get? handle).map fun record => ⟨handle, record.1, record.2⟩ := by
  simp only [cached?, hc, Option.bind_eq_bind, Option.bind_some]
  cases rt.cache.get? handle with
  | none => rfl
  | some record => rfl

/-- **A look-up ends in one of these ways.** -/
theorem finding_object (fault : Option FileFault) (map : Mapper) (handle : Handle)
    (hr : r.WellFormed) (hc : c.runtime = some rt) (ha : Agrees r rt) :
    ∃ result rt' events,
      c.object (MemoryAuthority.faulty fault) map handle ⟨some r⟩ =
        ⟨result, ({ c with runtime := some rt' }, ⟨some r⟩), events⟩ ∧
      Finding r map rt handle result rt' := by
  have hself : c = { c with runtime := some rt } := by rw [← hc]
  unfold object
  rw [cached?_eq hc]
  cases hget : rt.cache.get? handle with
  | some record => exact ⟨_, rt, _, by rw [← hself]; rfl, .cached hget⟩
  | none =>
      simp only [Option.map_none, fetch, hc, MemoryAuthority.faulty, MemoryAuthority.authority]
      by_cases hissued : ∃ e ∈ r.objects, e.handle = handle
      · obtain ⟨e, he, rfl⟩ := hissued
        have hrem := ha.remembered he map .semaphore
        rw [hr.query_eq he]
        rcases heq : rt.remember map e.handle .semaphore e.slot with ⟨shown, rt', events⟩
        have hkind : queriedKind (e.reply .success) = .ok .semaphore := by
          rw [queriedKind, Entry.reply, ObjectKind.eq_semaphore e.kind]
          rfl
        rw [heq] at hrem
        simp only [hkind]
        simp only [Entry.reply, heq]
        cases shown with
        | none => exact ⟨_, _, _, rfl, .unmapped he rfl hrem⟩
        | some block => exact ⟨_, _, _, rfl, .fetched he rfl hrem⟩
      · have hn : ∀ e ∈ r.objects, e.handle ≠ handle := fun e he hh => hissued ⟨e, he, hh⟩
        rw [hr.query_eq_bare hn]
        exact ⟨_, rt, _, by rw [← hself]; rfl, .unknown hget hn⟩

/-- The runtime that found an object still agrees with the registry. -/
theorem Finding.agrees (ha : Agrees r rt) {result : Except SyncError SyncObject}
    (h : Finding r map rt handle result rt') : Agrees r rt' := by
  cases h with
  | cached => exact ha
  | unknown => exact ha
  | unmapped _ _ kept => exact kept.agrees
  | fetched _ _ kept => exact kept.agrees

/-- Finding an object makes no runtime forget. -/
theorem Finding.extends_runtime {result : Except SyncError SyncObject}
    (h : Finding r map rt handle result rt') : Extends rt rt' := by
  cases h with
  | cached => exact .refl rt
  | unknown => exact .refl rt
  | unmapped _ _ kept => exact kept.extended
  | fetched _ _ kept => exact kept.extended

/-- What a look-up shows is a view of an object. -/
theorem Finding.shows (ha : Agrees r rt) {object : SyncObject}
    (h : Finding r map rt handle (.ok object) rt') :
    object.handle = handle ∧ ∃ e, Shows r rt' object e := by
  cases h with
  | cached h => exact ⟨rfl, ha.shows_of_get? h⟩
  | fetched he hh kept => exact ⟨rfl, _, kept.shows he hh.symm⟩

/-! ### Opening -/

/-- The runtime over a pool that was just opened. -/
theorem agrees_of_openAt (r : Registry) {system : System} {path : Path} {pool : Pool}
    {events : List Event} (h : Pool.openAt system path = ⟨.ok pool, (), events⟩) :
    Agrees r ⟨pool, .standard⟩ := by
  obtain ⟨hp, hs⟩ := Pool.of_openAt h
  refine ⟨hp, hs, HandleCache.wellFormed_standard, ?_⟩
  intro i kind block hrec
  rw [HandleCache.record?_standard] at hrec
  cases hrec

/-- A context over an authority that takes part agrees with any registry. -/
theorem of_openUnder (r : Registry) {system : System} {config : Config} {decision : GateDecision}
    (h : (openUnder system config decision true).result = .ok c) :
    ∃ rt, c.runtime = some rt ∧ Agrees r rt := by
  unfold openUnder at h
  cases he : decision.enabled with
  | false => simp only [he, Bool.not_false, if_true] at h; cases h
  | true =>
      simp only [he, Bool.not_true, Bool.false_eq_true, if_false] at h
      cases hpath : config.backingPath system with
      | error error => rw [hpath] at h; cases h
      | ok path =>
          simp only [hpath] at h
          rcases hopen : Pool.openAt system path with ⟨opened, ⟨⟩, events⟩
          cases opened with
          | error error => rw [hopen] at h; cases h
          | ok pool =>
              rw [hopen] at h
              cases h
              exact ⟨_, rfl, agrees_of_openAt r hopen⟩

/-- A context over an authority that takes part is enabled, and knows nothing yet. -/
theorem of_start {system : System} {config : Config} {answer : Futex.Answer} {gate gate' : Gate}
    {m : MemoryAuthority} {events : List Event}
    (h : start MemoryAuthority.authority system config answer gate ⟨some r⟩ =
      ⟨.ok c, (gate', m), events⟩) :
    m = ⟨some r⟩ ∧ ∃ rt, c.runtime = some rt ∧ Agrees r rt := by
  -- the support query is for no type, so it is refused and changes nothing
  have hopen : (openUnder system config (gate.decideByProbe config.enabled answer).result true).result
      = .ok c := congrArg Outcome.result h
  have hstate : (⟨some r⟩ : MemoryAuthority) = m := congrArg (fun o => o.state.2) h
  exact ⟨hstate.symm, of_openUnder r hopen⟩

end Context

end SharedSync
