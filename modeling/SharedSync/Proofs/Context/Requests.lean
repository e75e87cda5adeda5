import SharedSync.Proofs.Context.Calls
import SharedSync.Proofs.World.Run

/-!
# Context — one request, or none

A context calls an authority of which nothing is known: every request may be answered in any way.
`Creating` and `Looking` list the ways in which the two calls end, with what is left of the context
and what was asked of the authority.

* `Reachable`: the contexts that calls lead to.
* `creating_create`, `looking_object`: every call ends in one of these ways.
* `asks_once`: so a call makes one request or none, a creation succeeds just when its request yields
  an object, and what fails leaves the pages and the cached handles as they were.
-/

namespace SharedSync

namespace Runtime

variable {map : Mapper} {handle : Handle} {kind : ObjectKind} {slot : Slot} {rt : Runtime}

theorem result_remember :
    (rt.remember map handle kind slot).result = (rt.pool.block map slot).result := by
  unfold remember
  cases h : (rt.pool.block map slot).result <;> simp only [h]

theorem pool_remember :
    (rt.remember map handle kind slot).state.pool = (rt.pool.block map slot).state := by
  unfold remember
  cases h : (rt.pool.block map slot).result <;> simp only [h]

theorem wellFormed_remember (hp : rt.pool.WellFormed) :
    (rt.remember map handle kind slot).state.pool.WellFormed := by
  rw [pool_remember]
  exact hp.block map slot

/-- What cannot be shown is not cached. -/
theorem state_remember_of_unshown (h : (rt.pool.block map slot).result = none) :
    (rt.remember map handle kind slot).state =
      { rt with pool := (rt.pool.block map slot).state } := by
  simp only [remember, h]

end Runtime

namespace Context

/-- The contexts that calls lead to, whatever authorities and kernels say. -/
inductive Reachable : Context → Prop where
  | start {σ : Type} {a : Authority σ} {system : System} {config : Config} {answer : Futex.Answer}
      {gate : Gate} {s : σ} {c : Context} (h : (start a system config answer gate s).result = .ok c) :
      Reachable c
  | create {σ : Type} {c : Context} (h : Reachable c) (a : Authority σ) (map : Mapper)
      (request : CreateRequest) (s : σ) : Reachable (c.create a map request s).state.1
  | object {σ : Type} {c : Context} (h : Reachable c) (a : Authority σ) (map : Mapper)
      (handle : Handle) (s : σ) : Reachable (c.object a map handle s).state.1

/-- The mapping that the context has of a page, if it has one. -/
def mapping? (c : Context) (page : Nat) : Option Mapping :=
  c.runtime.bind fun rt => rt.pool.mapping? page

/-- The handles that the context has cached, if it has a cache. -/
def cache? (c : Context) : Option (HandleCache StateBlock) := c.runtime.map Runtime.cache

variable {σ : Type} {a : Authority σ} {map : Mapper} {request : CreateRequest} {handle : Handle}
  {c : Context} {s : σ}

/-! ### Creating -/

/-- The ways in which a creation can end, with the requests that it makes. -/
inductive Creating (a : Authority σ) (map : Mapper) (request : CreateRequest) (c : Context) (s : σ) :
    Except SyncError Created → Context × σ → List Request → Prop where
  | disabled (off : c.runtime = none) : Creating a map request c s (.error .disabled) (c, s) []
  | invalid {rt fault} (on : c.runtime = some rt) (h : validate request = .error fault) :
      Creating a map request c s (.error (.invalidAttributes fault)) (c, s) []
  | failed {rt error} (on : c.runtime = some rt) (valid : validate request = .ok ())
      (h : (a.create request s).result = .error error) :
      Creating a map request c s (.error error) (c, (a.create request s).state) [.create request]
  | refused {rt reply error} (on : c.runtime = some rt) (valid : validate request = .ok ())
      (h : (a.create request s).result = .ok reply) (without : createdHandle reply = .error error) :
      Creating a map request c s (.error error) (c, (a.create request s).state) [.create request]
  | given {rt reply handle} (on : c.runtime = some rt) (valid : validate request = .ok ())
      (h : (a.create request s).result = .ok reply) (yields : createdHandle reply = .ok handle) :
      Creating a map request c s (.ok ⟨reply.status, handle, reply.slot⟩)
        ({ c with runtime := some (adopt map request.type handle reply.slot rt).state },
          (a.create request s).state) [.create request]

/-- **A creation ends in one of these ways.** -/
theorem creating_create (a : Authority σ) (map : Mapper) (request : CreateRequest) (c : Context)
    (s : σ) : ∃ asked,
      Creating a map request c s (c.create a map request s).result (c.create a map request s).state
        asked ∧
      ∀ log, c.create a.recorded map request (s, log) =
        (c.create a map request s).inside fun left => (left.1, left.2, log ++ asked) := by
  unfold create
  cases hc : c.runtime with
  | none => exact ⟨[], .disabled hc, fun log => by simp [Outcome.inside]⟩
  | some rt =>
      cases hvalid : validate request with
      | error fault => exact ⟨[], .invalid hc hvalid, fun log => by simp [Outcome.inside]⟩
      | ok done =>
          refine ⟨[.create request], ?_⟩
          simp only [Authority.recorded, Outcome.inside]
          cases hreply : (a.create request s).result with
          | error error => exact ⟨.failed hc hvalid hreply, fun _ => rfl⟩
          | ok reply =>
              simp only
              cases hhandle : createdHandle reply with
              | error error => exact ⟨.refused hc hvalid hreply hhandle, fun _ => rfl⟩
              | ok handle => exact ⟨.given hc hvalid hreply hhandle, fun _ => rfl⟩

theorem isEnabled_of_runtime {rt : Runtime} (h : c.runtime = some rt) : c.isEnabled = true := by
  rw [isEnabled, h, Option.isSome_some]

theorem isEnabled_of_none (h : c.runtime = none) : c.isEnabled = false := by
  rw [isEnabled, h, Option.isSome_none]

/-- A reply has a usable handle with one of two statuses, and if it names one. -/
theorem createdHandle_eq_ok_iff {reply : Reply} {handle : Handle} :
    createdHandle reply = .ok handle ↔
      (reply.status = .success ∨ reply.status = .objectNameExists) ∧
        reply.handle = some handle := by
  rw [← Status.yieldsObject_iff, createdHandle]
  cases reply.status.yieldsObject <;> cases reply.handle <;> simp

/-- Any other status is handed back as it came. -/
theorem createdHandle_of_refused {reply : Reply}
    (h : ¬ (reply.status = .success ∨ reply.status = .objectNameExists)) :
    createdHandle reply = .error (.authority reply.status) := by
  rw [← Status.yieldsObject_iff, Bool.not_eq_true] at h
  rw [createdHandle, h]
  rfl

namespace Creating

variable {result : Except SyncError Created} {left : Context × σ} {asked : List Request}

/-- A disabled context, or one with invalid attributes, asks nothing. -/
theorem asked_of_off (h : Creating a map request c s result left asked)
    (hoff : c.isEnabled = false ∨ validate request ≠ .ok ()) : asked = [] := by
  cases h with
  | disabled | invalid => rfl
  | failed on valid | refused on valid | given on valid =>
      rcases hoff with hoff | hne
      · exact absurd ((isEnabled_of_runtime on).symm.trans hoff) nofun
      · exact absurd valid hne

/-- An enabled context asks once, for the very request. -/
theorem asked_of_on (h : Creating a map request c s result left asked) (hon : c.isEnabled = true)
    (hvalid : validate request = .ok ()) : asked = [.create request] := by
  cases h with
  | disabled off => exact absurd ((isEnabled_of_none off).symm.trans hon) nofun
  | invalid _ h => exact absurd (h.symm.trans hvalid) nofun
  | failed | refused | given => rfl

/-- The reply decides, and neither the kernel nor the cache does. -/
theorem result_of_reply (h : Creating a map request c s result left asked)
    (hon : c.isEnabled = true) (hvalid : validate request = .ok ()) {reply : Reply}
    (hreply : (a.create request s).result = .ok reply) :
    result = (createdHandle reply).map fun handle => ⟨reply.status, handle, reply.slot⟩ := by
  cases h with
  | disabled off => exact absurd ((isEnabled_of_none off).symm.trans hon) nofun
  | invalid _ h => exact absurd (h.symm.trans hvalid) nofun
  | failed _ _ h => exact absurd (h.symm.trans hreply) nofun
  | refused _ _ h without =>
      obtain rfl := Except.ok.inj (h.symm.trans hreply)
      rw [without]
      rfl
  | given _ _ h yields =>
      obtain rfl := Except.ok.inj (h.symm.trans hreply)
      rw [yields]
      rfl

/-- A creation succeeds just if it was asked and the reply names an object. -/
theorem ok_iff (h : Creating a map request c s result left asked) (created : Created) :
    result = .ok created ↔ c.isEnabled = true ∧ validate request = .ok () ∧ ∃ reply,
      (a.create request s).result = .ok reply ∧
      (reply.status = .success ∨ reply.status = .objectNameExists) ∧
      reply.handle = some created.handle ∧ reply.status = created.status ∧
      reply.slot = created.slot := by
  constructor
  · rintro rfl
    cases h with
    | @given rt reply handle on valid h yields =>
        obtain ⟨hstatus, hhandle⟩ := createdHandle_eq_ok_iff.mp yields
        exact ⟨isEnabled_of_runtime on, valid, reply, h, hstatus, hhandle, rfl, rfl⟩
  · rintro ⟨hon, hvalid, reply, hreply, hyields, hhandle, hstatus, hslot⟩
    rw [h.result_of_reply hon hvalid hreply, createdHandle_eq_ok_iff.mpr ⟨hyields, hhandle⟩,
      Except.map, hstatus, hslot]

theorem result_of_refused (h : Creating a map request c s result left asked)
    (hon : c.isEnabled = true) (hvalid : validate request = .ok ()) {reply : Reply}
    (hreply : (a.create request s).result = .ok reply)
    (hstatus : ¬ (reply.status = .success ∨ reply.status = .objectNameExists)) :
    result = .error (.authority reply.status) := by
  rw [h.result_of_reply hon hvalid hreply, createdHandle_of_refused hstatus]
  rfl

/-- A creation that fails leaves the context as it was. -/
theorem kept {error : SyncError} (h : Creating a map request c s (.error error) left asked) :
    left.1 = c := by
  cases h <;> rfl

end Creating

/-! ### Looking up -/

/-- The ways in which a look-up can end, with the requests that it makes. -/
inductive Looking (a : Authority σ) (map : Mapper) (handle : Handle) (c : Context) (s : σ) :
    Except SyncError SyncObject → Context × σ → List Request → Prop where
  | cached {object} (hit : c.cached? handle = some object) :
      Looking a map handle c s (.ok object) (c, s) []
  | disabled (miss : c.cached? handle = none) (off : c.runtime = none) :
      Looking a map handle c s (.error .disabled) (c, s) []
  | failed {rt error} (miss : c.cached? handle = none) (on : c.runtime = some rt)
      (h : (a.query handle s).result = .error error) :
      Looking a map handle c s (.error error) (c, (a.query handle s).state) [.query handle]
  | refused {rt reply error} (miss : c.cached? handle = none) (on : c.runtime = some rt)
      (h : (a.query handle s).result = .ok reply) (without : queriedKind reply = .error error) :
      Looking a map handle c s (.error error) (c, (a.query handle s).state) [.query handle]
  | unmapped {rt reply} (miss : c.cached? handle = none) (on : c.runtime = some rt)
      (h : (a.query handle s).result = .ok reply)
      (unshown : (rt.pool.block map reply.slot).result = none) :
      Looking a map handle c s (.error (.cannotMap (toString reply.slot)))
        ({ c with runtime := some { rt with pool := (rt.pool.block map reply.slot).state } },
          (a.query handle s).state) [.query handle]
  | fetched {rt reply kind block} (miss : c.cached? handle = none) (on : c.runtime = some rt)
      (h : (a.query handle s).result = .ok reply) (known : queriedKind reply = .ok kind)
      (shown : (rt.pool.block map reply.slot).result = some block) :
      Looking a map handle c s (.ok ⟨handle, kind, block⟩)
        ({ c with runtime := some (rt.remember map handle kind reply.slot).state },
          (a.query handle s).state) [.query handle]

/-- **A look-up ends in one of these ways.** -/
theorem looking_object (a : Authority σ) (map : Mapper) (handle : Handle) (c : Context) (s : σ) :
    ∃ asked,
      Looking a map handle c s (c.object a map handle s).result (c.object a map handle s).state
        asked ∧
      ∀ log, c.object a.recorded map handle (s, log) =
        (c.object a map handle s).inside fun left => (left.1, left.2, log ++ asked) := by
  unfold object
  cases hmiss : c.cached? handle with
  | some object => exact ⟨[], .cached hmiss, fun log => by simp [Outcome.inside]⟩
  | none =>
      unfold fetch
      cases hc : c.runtime with
      | none => exact ⟨[], .disabled hmiss hc, fun log => by simp [Outcome.inside]⟩
      | some rt =>
          -- from here on the authority is asked, once
          refine ⟨[.query handle], ?_⟩
          simp only [Authority.recorded, Outcome.inside]
          cases hreply : (a.query handle s).result with
          | error error => exact ⟨.failed hmiss hc hreply, fun _ => rfl⟩
          | ok reply =>
              simp only
              cases hkind : queriedKind reply with
              | error error => exact ⟨.refused hmiss hc hreply hkind, fun _ => rfl⟩
              | ok kind =>
                  simp only
                  have hresult := @Runtime.result_remember map handle kind reply.slot rt
                  cases hshown : (rt.pool.block map reply.slot).result with
                  | none =>
                      rw [hresult, hshown, Runtime.state_remember_of_unshown hshown]
                      exact ⟨.unmapped hmiss hc hreply hshown, fun _ => trivial⟩
                  | some block =>
                      rw [hresult, hshown]
                      exact ⟨.fetched hmiss hc hreply hkind hshown, fun _ => trivial⟩

namespace Looking

variable {result : Except SyncError SyncObject} {left : Context × σ} {asked : List Request}

/-- A handle that is not cached is asked for once. -/
theorem asked_of_miss (h : Looking a map handle c s result left asked)
    (hon : c.isEnabled = true) (hmiss : c.cached? handle = none) : asked = [.query handle] := by
  cases h with
  | cached hit => exact absurd (hmiss.symm.trans hit) nofun
  | disabled _ off => exact absurd ((isEnabled_of_none off).symm.trans hon) nofun
  | failed | refused | unmapped | fetched => rfl

/-- A look-up that fails may have counted a failure of the kernel, but mapped and cached nothing. -/
theorem kept {error : SyncError} (h : Looking a map handle c s (.error error) left asked)
    (hp : ∀ rt, c.runtime = some rt → rt.pool.WellFormed) :
    left.1.cache? = c.cache? ∧ ∀ page, left.1.mapping? page = c.mapping? page := by
  cases h with
  | disabled | failed | refused => exact ⟨rfl, fun _ => rfl⟩
  | @unmapped rt reply _ on _ unshown =>
      have hshowing := Pool.showing_block (hp rt on) map reply.slot
      rw [unshown] at hshowing
      refine ⟨?_, fun page => ?_⟩
      · rw [cache?, cache?, on]
        rfl
      · rw [mapping?, mapping?, on]
        exact hshowing.mapping?_of_none (hp rt on) page

end Looking

/-! ### Reachable contexts -/

/-- A context that was just opened has mapped nothing. -/
theorem wellFormed_openUnder {system : System} {config : Config} {decision : GateDecision}
    {takesPart : Bool} (h : (openUnder system config decision takesPart).result = .ok c)
    {rt : Runtime} (hc : c.runtime = some rt) : rt.pool.WellFormed := by
  cases takesPart with
  | true =>
      obtain ⟨rt', hrt', hagrees⟩ := of_openUnder (.start ⟨[]⟩ .usual 0) h
      obtain rfl : rt = rt' := Option.some.inj (hc.symm.trans hrt')
      exact hagrees.pool
  | false =>
      -- an authority that takes no part leaves only a context without a runtime
      unfold openUnder at h
      cases he : decision.enabled with
      | false =>
          simp only [he] at h
          cases h
          cases hc
      | true =>
          simp only [he] at h
          cases h

/-- A creation keeps the pages in order. -/
theorem Creating.wellFormed {result : Except SyncError Created} {left : Context × σ}
    {asked : List Request} (h : Creating a map request c s result left asked)
    (hp : ∀ rt, c.runtime = some rt → rt.pool.WellFormed) {rt : Runtime}
    (hleft : left.1.runtime = some rt) : rt.pool.WellFormed := by
  cases h with
  | disabled | invalid | failed | refused => exact hp rt hleft
  | @given rt₀ reply handle on =>
      have hp₀ := hp rt₀ on
      cases hleft
      unfold adopt
      cases ObjectKind.ofTag? request.type with
      | none => exact hp₀
      | some kind => exact Runtime.wellFormed_remember hp₀

/-- A look-up keeps the pages in order. -/
theorem Looking.wellFormed {result : Except SyncError SyncObject} {left : Context × σ}
    {asked : List Request} (h : Looking a map handle c s result left asked)
    (hp : ∀ rt, c.runtime = some rt → rt.pool.WellFormed) {rt : Runtime}
    (hleft : left.1.runtime = some rt) : rt.pool.WellFormed := by
  cases h with
  | cached | disabled | failed | refused => exact hp rt hleft
  | @unmapped rt₀ reply _ on =>
      have hp₀ := hp rt₀ on
      cases hleft
      exact hp₀.block map reply.slot
  | @fetched rt₀ reply kind block _ on =>
      have hp₀ := hp rt₀ on
      cases hleft
      exact Runtime.wellFormed_remember hp₀

/-- The pages of a context show their own parts of the file. -/
theorem Reachable.wellFormed (h : Reachable c) {rt : Runtime} (hc : c.runtime = some rt) :
    rt.pool.WellFormed := by
  induction h generalizing rt with
  | @start σ a system config answer gate s c h =>
      unfold Context.start at h
      simp only at h
      cases hreply : (a.create .supportQuery s).result with
      | error error => rw [hreply] at h; cases h
      | ok reply =>
          rw [hreply] at h
          exact wellFormed_openUnder h hc
  | create _ a map request s ih =>
      obtain ⟨asked, hcreating, -⟩ := creating_create a map request _ s
      exact hcreating.wellFormed (fun _ => ih) hc
  | object _ a map handle s ih =>
      obtain ⟨asked, hlooking, -⟩ := looking_object a map handle _ s
      exact hlooking.wellFormed (fun _ => ih) hc

/-! ### Once, or not at all -/

/-- What a creation asks, answers and leaves. -/
structure CreatesOnce (a : Authority σ) (map : Mapper) (request : CreateRequest) (c : Context)
    (s : σ) : Prop where
  /-- Nothing is asked while the fast path is off or if the attributes exceed a limit, -/
  unasked : c.isEnabled = false ∨ validate request ≠ .ok () → ∀ log,
    c.create a.recorded map request (s, log) =
      (c.create a map request s).inside fun left => (left.1, left.2, log)
  /-- and otherwise this request, once. -/
  asked : c.isEnabled = true → validate request = .ok () → ∀ log,
    c.create a.recorded map request (s, log) =
      (c.create a map request s).inside fun left => (left.1, left.2, log ++ [.create request])
  /-- It succeeds just when the reply yields an object, and says what the reply says. -/
  ok_iff : ∀ created, (c.create a map request s).result = .ok created ↔
    c.isEnabled = true ∧ validate request = .ok () ∧ ∃ reply,
      (a.create request s).result = .ok reply ∧
      (reply.status = .success ∨ reply.status = .objectNameExists) ∧
      reply.handle = some created.handle ∧ reply.status = created.status ∧
      reply.slot = created.slot
  /-- A refusal is handed back with its status. -/
  refused : c.isEnabled = true → validate request = .ok () → ∀ reply,
    (a.create request s).result = .ok reply →
      ¬ (reply.status = .success ∨ reply.status = .objectNameExists) →
        (c.create a map request s).result = .error (.authority reply.status)
  kept : ∀ error, (c.create a map request s).result = .error error →
    (c.create a map request s).state.1 = c

/-- What a look-up asks, answers and leaves. -/
structure LooksOnce (a : Authority σ) (map : Mapper) (handle : Handle) (c : Context) (s : σ) :
    Prop where
  /-- What is cached is answered from the cache, -/
  hit : ∀ object, c.cached? handle = some object → ∀ log,
    c.object a.recorded map handle (s, log) = ⟨.ok object, (c, s, log), []⟩
  /-- and for anything else there is one query, -/
  miss : c.isEnabled = true → c.cached? handle = none → ∀ log,
    c.object a.recorded map handle (s, log) =
      (c.object a map handle s).inside fun left => (left.1, left.2, log ++ [.query handle])
  /-- or none while the fast path is off. -/
  disabled : c.isEnabled = false → ∀ log,
    c.object a.recorded map handle (s, log) = ⟨.error .disabled, (c, s, log), []⟩
  kept : ∀ error, (c.object a map handle s).result = .error error →
    (c.object a map handle s).state.1.cache? = c.cache? ∧
      ∀ page, (c.object a map handle s).state.1.mapping? page = c.mapping? page

/-- What a creation asks and answers, in any context. -/
theorem createsOnce (a : Authority σ) (map : Mapper) (request : CreateRequest) (c : Context)
    (s : σ) : CreatesOnce a map request c s := by
  obtain ⟨asked, h, hrecorded⟩ := creating_create a map request c s
  constructor
  case unasked =>
    intro hoff log
    rw [hrecorded, h.asked_of_off hoff, List.append_nil]
  case asked =>
    intro hon hvalid log
    rw [hrecorded, h.asked_of_on hon hvalid]
  case ok_iff => exact h.ok_iff
  case refused => exact fun hon hvalid reply => h.result_of_refused hon hvalid
  case kept =>
    intro error herror
    rw [herror] at h
    exact h.kept

/-- What a look-up asks and answers, in a context that calls can lead to. -/
theorem looksOnce (h : Reachable c) (a : Authority σ) (map : Mapper) (handle : Handle) (s : σ) :
    LooksOnce a map handle c s := by
  obtain ⟨asked, hlooking, hrecorded⟩ := looking_object a map handle c s
  constructor
  case hit =>
    intro found hit log
    rw [object, hit]
  case miss =>
    intro hon hmiss log
    rw [hrecorded, hlooking.asked_of_miss hon hmiss]
  case disabled =>
    intro hoff log
    have hnone : c.runtime = none :=
      Option.isNone_iff_eq_none.mp (Option.isSome_eq_false_iff.mp hoff)
    simp only [object, cached?, fetch, hnone]
    rfl
  case kept =>
    intro error herror
    rw [herror] at hlooking
    exact hlooking.kept fun rt => h.wellFormed

/-- **A call makes one request or none, and what fails has mapped and cached nothing.** -/
theorem asks_once (h : Reachable c) (a : Authority σ) (map : Mapper) (s : σ) :
    (∀ request, CreatesOnce a map request c s) ∧ ∀ handle, LooksOnce a map handle c s :=
  ⟨fun request => createsOnce a map request c s, fun handle => looksOnce h a map handle s⟩

namespace Small

/-- An authority that answers everything with one object. -/
def granting : Authority Unit where
  create request _ := ⟨.ok ⟨.success, some .first, ⟨600⟩, request.type⟩, (), []⟩
  query _ _ := ⟨.ok ⟨.success, some .first, ⟨600⟩, 1⟩, (), []⟩

/-- A kernel that maps nothing. -/
def refuse : Mapper := fun _ => .error .cannotAllocate

theorem reachable_context : Reachable World.Small.context :=
  .start (congrArg Outcome.result World.Small.start_eq)

end Small

/-- Without any page, an object of an unknown type is made, and one of a known type is not shown. -/
theorem asks_once_small :
    Reachable World.Small.context ∧
      (create Small.granting Small.refuse { type := 7 } World.Small.context ()).result =
        .ok ⟨.success, .first, ⟨600⟩⟩ ∧
      (object Small.granting Small.refuse .first World.Small.context ()).result =
        .error (.cannotMap "600") ∧
      CreatesOnce Small.granting Small.refuse { type := 7 } World.Small.context () ∧
      LooksOnce Small.granting Small.refuse .first World.Small.context () := by
  obtain ⟨hcreates, hlooks⟩ := asks_once Small.reachable_context Small.granting Small.refuse ()
  refine ⟨Small.reachable_context, ?created, ?unshown, hcreates _, hlooks _⟩
  case created =>
    exact ((hcreates { type := 7 }).ok_iff _).mpr ⟨rfl, rfl, _, rfl, .inl rfl, rfl, rfl, rfl⟩
  case unshown => decide +kernel

end Context

end SharedSync
