import SharedSync.Proofs.World.Run

/-!
# World — a handle is bound for good

Once a creation has answered with a handle and a slot, the two belong together for the rest of
the run: whatever the kernel refuses to map, and whether the handle has a record in the cache or
lies beyond it, later calls agree on the object, on its name, and on the place of its block.

* `finding_issued`: a look-up of an issued handle shows the object's block or fails to map it.
* `Run.binding_kept`: so what a creation answered binds every later answer.
-/

namespace SharedSync

namespace Context

open SharedSync.Runtime (Agrees)

variable {r : Registry} {map : Mapper} {rt rt' : Runtime} {e : Entry}

/-- The object of a cached handle is the one with that index. -/
theorem get?_issued (hr : r.WellFormed) (ha : Agrees r rt) (he : e ∈ r.objects) {handle : Handle}
    (hi : HandleCache.index? handle = HandleCache.index? e.handle)
    {record : ObjectKind × StateBlock} (h : rt.cache.get? handle = some record) :
    record.1 = .semaphore ∧ rt.pool.blockAt? e.slot = some record.2 := by
  obtain ⟨e', hs⟩ := ha.shows_of_get? h
  obtain rfl : e' = e := hr.eq_of_index? hs.mem he (hs.index.symm.trans hi)
  exact ⟨ObjectKind.eq_semaphore _, hs.block⟩

/-- A look-up of an issued handle shows its object's block, or cannot map it. -/
theorem finding_issued (hr : r.WellFormed) (ha : Agrees r rt) (he : e ∈ r.objects)
    {answer : Except SyncError SyncObject} (h : Finding r map rt e.handle answer rt') :
    (∃ block, answer = .ok ⟨e.handle, .semaphore, block⟩ ∧
        rt'.pool.blockAt? e.slot = some block) ∨
      answer = .error (.cannotMap (toString e.slot)) ∧ rt'.pool.blockAt? e.slot = none := by
  cases h with
  | @cached kind block hget =>
      obtain ⟨hk, hb⟩ := get?_issued hr ha he rfl hget
      obtain rfl : kind = .semaphore := hk
      exact .inl ⟨block, rfl, hb⟩
  | unknown _ hn => exact absurd rfl (hn e he)
  | unmapped he' hh kept =>
      obtain rfl := hr.eq_of_handle he' he hh
      exact .inr ⟨rfl, kept.block.symm⟩
  | @fetched e' block _ he' hh kept =>
      obtain rfl := hr.eq_of_handle he' he hh
      exact .inl ⟨block, rfl, kept.block.symm⟩

end Context

namespace World

open Registry (nameOf)

/-- After `trace`, the answer of `act` respects that `handle` is bound to `slot`, and that the
name of `request` leads there. -/
structure Bound (trace : List Act) (act : Act) (request : CreateRequest) (handle : Handle)
    (slot : Slot) : Prop where
  /-- A creation under the same name answers with this handle and this slot. -/
  name : ∀ (i : Nat) (again : CreateRequest) (created : Created),
    act = .create i again (.ok created) → nameOf request ≠ none →
      nameOf again = nameOf request → created.handle = handle ∧ created.slot = slot
  /-- A look-up shows a semaphore in the slot's block, unless the block cannot be mapped. -/
  lookup : ∀ (i : Nat) (answer : Except SyncError SyncObject), act = .lookup i handle answer →
    (∃ block, answer = .ok ⟨handle, .semaphore, block⟩ ∧ block.fileOffset = slot.byteOffset) ∨
      answer = .error (.cannotMap (toString slot))
  /-- The cache shows nothing else. -/
  cached : ∀ (i : Nat) (answer : Option SyncObject), act = .cachedLookup i handle answer →
    answer = none ∨
      ∃ block, answer = some ⟨handle, .semaphore, block⟩ ∧ block.fileOffset = slot.byteOffset
  /-- Once the context was given the slot's block, a look-up succeeds with that very block. -/
  sameBlock : ∀ (i : Nat) (object : SyncObject), Given trace i object →
    object.block.fileOffset = slot.byteOffset →
      (∀ answer, act = .lookup i handle answer →
        answer = .ok ⟨handle, .semaphore, object.block⟩) ∧
      ∀ answer, act = .cachedLookup i handle answer →
        answer = none ∨ answer = some ⟨handle, .semaphore, object.block⟩
  /-- Once the cache showed the handle, it shows it. -/
  stays : ∀ (i : Nat) (object : SyncObject), .cachedLookup i handle (some object) ∈ trace →
    ∀ answer, act = .cachedLookup i handle answer → answer = some object

variable {trace : List Act} {w w' : World} {r r' : Registry} {act : Act} {i : Nat}
  {e : Entry} {handle : Handle}

/-- A creation under a registered name opens the object of that name. -/
theorem Change.same_name {request : CreateRequest} {created : Created}
    (h : Change trace w r (.create i request (.ok created)) w' r') {name : String}
    (hn : nameOf request = some name) (hf : r.find? (some name) = some e) :
    created.handle = e.handle ∧ created.slot = e.slot := by
  cases h with
  | create _ _ making =>
      cases making with
      | opened found =>
          rw [hn, hf] at found
          cases found
          exact ⟨rfl, rfl⟩
      | made new =>
          rw [hn, hf] at new
          cases new

/-- A view in a block of the file is a view of the object there. -/
theorem Sound.blockAt?_of_views (hs : w.Sound r) {object : SyncObject}
    (hv : w.Views r i object) (ho : object.block.fileOffset = e.slot.byteOffset) :
    ∃ rt, w.runtime? i = some rt ∧ rt.pool.blockAt? e.slot = some object.block := by
  obtain ⟨rt, e', hrt, hshows⟩ := hv
  have hslot : e'.slot = e.slot :=
    Slot.byteOffset_inj ((hshows.fileOffset (hs.agrees hrt)).symm.trans ho)
  exact ⟨rt, hrt, hslot ▸ hshows.block⟩

/-- What a look-up of an issued handle answers, and where its block is afterwards. -/
theorem Change.lookup_issued (hs : w.Sound r) (he : e ∈ r.objects)
    {answer : Except SyncError SyncObject}
    (h : Change trace w r (.lookup i e.handle answer) w' r') :
    ∃ rt', w'.runtime? i = some rt' ∧ rt'.Agrees r ∧
      ((∃ block, answer = .ok ⟨e.handle, .semaphore, block⟩ ∧
          rt'.pool.blockAt? e.slot = some block) ∨
        answer = .error (.cannotMap (toString e.slot)) ∧ rt'.pool.blockAt? e.slot = none) := by
  cases h with
  | @lookup i c map rt _ _ rt' context runtime finding =>
      have ha := hs.agrees ((runtime?_eq context).trans runtime)
      exact ⟨rt', runtime?_put_self context, finding.agrees ha,
        Context.finding_issued hs.registry ha he finding⟩

/-- What the cache shows of an issued handle. -/
theorem Change.cachedLookup_issued (hs : w.Sound r) (he : e ∈ r.objects)
    {answer : Option SyncObject}
    (h : Change trace w r (.cachedLookup i e.handle answer) w' r') :
    ∃ rt, w.runtime? i = some rt ∧ rt.Agrees r ∧
      ((rt.cache.get? e.handle = none ∧ answer = none) ∨
        ∃ block, rt.cache.get? e.handle = some (.semaphore, block) ∧
          answer = some ⟨e.handle, .semaphore, block⟩ ∧ rt.pool.blockAt? e.slot = some block) := by
  cases h with
  | @cachedLookup i c rt _ context runtime =>
      have hrt := (runtime?_eq context).trans runtime
      have ha := hs.agrees hrt
      refine ⟨rt, hrt, ha, ?_⟩
      rw [Context.cached?_eq runtime]
      cases hget : rt.cache.get? e.handle with
      | none => exact .inl ⟨rfl, rfl⟩
      | some record =>
          obtain ⟨kind, block⟩ := record
          obtain ⟨hk, hb⟩ := Context.get?_issued hs.registry ha he rfl hget
          obtain rfl : kind = .semaphore := hk
          exact .inr ⟨block, rfl, rfl, hb⟩

/-- **What a creation answered binds every later answer.** -/
theorem Run.binding_kept (h : Run (act :: trace) w) {request : CreateRequest} {status : Status}
    {slot : Slot} (hc : .create i request (.ok ⟨status, handle, slot⟩) ∈ trace) :
    Bound trace act request handle slot := by
  obtain - | ⟨run, step⟩ := h
  obtain ⟨r, hs, hall⟩ := run.stands
  obtain ⟨r', change⟩ := step.change hs
  obtain ⟨e, he, hh, hslot, hname⟩ := hall _ hc
  obtain rfl : handle = e.handle := hh
  obtain rfl : slot = e.slot := hslot
  have fileOffset : ∀ {rt : Runtime} {block : StateBlock}, rt.Agrees r →
      rt.pool.blockAt? e.slot = some block → block.fileOffset = e.slot.byteOffset :=
    fun ha hb => ha.pool.fileOffset_blockAt? hb
  refine ⟨?name, ?lookup, ?cached, ?sameBlock, ?stays⟩
  case name =>
    rintro j again created rfl hne hsame
    obtain ⟨name, hn⟩ := Option.ne_none_iff_exists'.mp hne
    exact change.same_name (hsame.trans hn) (hname name hn)
  case lookup =>
    rintro j answer rfl
    obtain ⟨rt, -, ha, ⟨block, rfl, hb⟩ | ⟨rfl, -⟩⟩ := change.lookup_issued hs he
    · exact .inl ⟨block, rfl, fileOffset ha hb⟩
    · exact .inr rfl
  case cached =>
    rintro j answer rfl
    obtain ⟨rt, -, ha, ⟨-, rfl⟩ | ⟨block, -, rfl, hb⟩⟩ := change.cachedLookup_issued hs he
    · exact .inl rfl
    · exact .inr ⟨block, rfl, fileOffset ha hb⟩
  case sameBlock =>
    intro j object hgiven hoffset
    obtain ⟨rt₀, hrt₀, hb₀⟩ := hs.blockAt?_of_views (hgiven.views hall) hoffset
    constructor
    · rintro answer rfl
      obtain ⟨rt, hrt, -, hanswer⟩ := change.lookup_issued hs he
      -- the pool had the block before the call, and forgets none
      obtain ⟨rt', hrt', hext⟩ := change.extends j rt₀ hrt₀
      obtain rfl : rt' = rt := Option.some.inj (hrt'.symm.trans hrt)
      have hb := hext.blockAt? _ _ hb₀
      rcases hanswer with ⟨block, rfl, hb'⟩ | ⟨-, hb'⟩
      · obtain rfl : object.block = block := Option.some.inj (hb.symm.trans hb')
        rfl
      · rw [hb] at hb'
        cases hb'
    · rintro answer rfl
      obtain ⟨rt, hrt, -, ⟨-, rfl⟩ | ⟨block, -, rfl, hb⟩⟩ := change.cachedLookup_issued hs he
      · exact .inl rfl
      · obtain rfl : rt₀ = rt := Option.some.inj (hrt₀.symm.trans hrt)
        obtain rfl : object.block = block := Option.some.inj (hb₀.symm.trans hb)
        exact .inr rfl
  case stays =>
    rintro j object hbefore answer rfl
    -- the record that the cache showed is still in it
    obtain ⟨hh, -, rt₀, hrt₀, hget⟩ := hall _ hbefore
    obtain ⟨rt, hrt, -, ⟨hnone, -⟩ | ⟨block, hsome, rfl, -⟩⟩ := change.cachedLookup_issued hs he
    · obtain rfl : rt₀ = rt := Option.some.inj (hrt₀.symm.trans hrt)
      rw [hget] at hnone
      cases hnone
    · obtain rfl : rt₀ = rt := Option.some.inj (hrt₀.symm.trans hrt)
      rw [hget] at hsome
      obtain ⟨g, kind, b⟩ := object
      cases hsome
      cases hh
      rfl

/-- The binding after the small run, at a look-up of the semaphore. -/
theorem binding_kept_small : ∃ answer w,
    Run (.lookup 0 Handle.first answer :: Small.created) w ∧
      Bound Small.created (.lookup 0 Handle.first answer) Small.request Handle.first ⟨0⟩ := by
  obtain ⟨w, c, block, run, hc, -⟩ := Small.exists_created
  obtain ⟨answer, w', run'⟩ := run.exists_lookup hc Small.map Handle.first
  exact ⟨answer, w', run', run'.binding_kept (List.mem_cons_self ..)⟩

end World

end SharedSync
