import SharedSync.Proofs.World.Run

/-!
# World — looking up through the cache

A look-up goes to the cache by the index of the handle, and to the authority by the exact handle.
The two agree on every handle without reserved bits.  On the others the cache, which does not
read those bits, shows the object of the plain handle with the same index, and the authority
refuses.

* `Run.object_matches_query`: what a look-up answers, for every handle.
-/

namespace SharedSync

namespace World

open SharedSync.Runtime (Shows)

/-- `result` tells of `handle` what `reply`, the answer to a query, tells of it. -/
def Matches (reply : Reply) (handle : Handle) (result : Except SyncError SyncObject) : Prop :=
  (reply.status = .success →
    ∃ kind block, result = .ok ⟨handle, kind, block⟩ ∧ ObjectKind.ofTag? reply.type = some kind ∧
      block.fileOffset = reply.slot.byteOffset) ∧
  (reply.status ≠ .success → result = .error (.authority reply.status))

variable {trace : List Act} {w : World} {r : Registry} {i : Nat} {c : Context} {rt : Runtime}
  {e : Entry} {handle : Handle} {object : SyncObject}

theorem matches_unknown :
    Matches (.bare .invalidHandle) handle (.error (.authority .invalidHandle)) := by
  refine ⟨?_, fun _ => rfl⟩
  intro h
  cases h

/-- A view of `e` matches the reply about `e`. -/
theorem matches_shows (ha : rt.Agrees r) (hs : Shows r rt object e) :
    Matches (e.reply .success) object.handle (.ok object) := by
  refine ⟨fun _ => ⟨object.kind, object.block, rfl, ?_, hs.fileOffset ha⟩, fun h => absurd rfl h⟩
  rw [ObjectKind.eq_semaphore object.kind, Entry.reply, ObjectKind.eq_semaphore e.kind]
  exact ObjectKind.ofTag?_tag _

/-- A plain handle of a view is the handle that was issued. -/
theorem handle_eq_of_shows (hr : r.WellFormed) (hs : Shows r rt object e)
    (hp : object.handle.IsPlain) : object.handle = e.handle := by
  have hi := hr.index?_eq hs.mem
  exact HandleCache.eq_of_index?_eq (hs.index.trans hi) hi hp (hr.isPlain hs.mem)

/-- **A look-up answers as the authority would.**  Only a handle with reserved bits that leads to a
cached object is answered from the cache where the authority refuses it. -/
theorem Run.object_matches_query (h : Run trace w) (hc : w.contexts[i]? = some c) {map : Mapper}
    (hmap : ∀ request, ∃ base, map request = .ok base) (handle : Handle) :
    ∃ reply,
      (MemoryAuthority.authority.query handle w.authority).result = .ok reply ∧
      (handle.IsPlain ∨ c.cached? handle = none →
        Matches reply handle (c.object MemoryAuthority.authority map handle w.authority).result) ∧
      ∀ object, c.cached? handle = some object → ¬ handle.IsPlain →
        (c.object MemoryAuthority.authority map handle w.authority).result = .ok object ∧
        reply = .bare .invalidHandle ∧
        ∃ plain replyPlain, plain.IsPlain ∧
          HandleCache.index? plain = HandleCache.index? handle ∧
          (MemoryAuthority.authority.query plain w.authority).result = .ok replyPlain ∧
          replyPlain.status = .success ∧ Matches replyPlain handle (.ok object) := by
  obtain ⟨r, hs⟩ := h.sound
  obtain ⟨rt, hrt, ha⟩ := hs.contexts i c hc
  have hquery : ∀ g, (MemoryAuthority.authority.query g w.authority).result = .ok (r.query g) :=
    fun g => by rw [hs.authority]; rfl
  have hcached := Context.cached?_eq hrt handle
  refine ⟨r.query handle, hquery handle, ?_, ?_⟩
  -- the four ways of a look-up; a plain handle in the cache is one that was issued
  · intro hgood
    obtain ⟨result, rt', events, heq, hfinding⟩ :=
      Context.finding_object none map handle hs.registry hrt ha
    rw [hs.authority, ← MemoryAuthority.faulty_none, heq]
    cases hfinding with
    | @cached kind block hget =>
        obtain ⟨e, hshows⟩ := ha.shows_of_get? hget
        rcases hgood with hp | hnone
        · have hq : r.query handle = e.reply .success := by
            rw [show handle = e.handle from handle_eq_of_shows hs.registry hshows hp,
              hs.registry.query_eq hshows.mem]
          rw [hq]
          exact matches_shows ha hshows
        · rw [hcached, hget] at hnone
          cases hnone
    | unknown _ hn =>
        rw [hs.registry.query_eq_bare hn]
        exact matches_unknown
    | unmapped _ _ kept => cases kept.mapped hmap
    | @fetched e block _ he hh kept =>
        subst hh
        rw [hs.registry.query_eq he]
        exact matches_shows kept.agrees (kept.shows he rfl)
  -- the reserved bits do not count for the cache, and do for the registry
  · intro object hobject hmarked
    have hresult : (c.object MemoryAuthority.authority map handle w.authority).result =
        .ok object := by rw [Context.object, hobject]
    rw [hcached] at hobject
    obtain ⟨⟨kind, block⟩, hget, rfl⟩ := Option.map_eq_some_iff.mp hobject
    obtain ⟨e, hshows⟩ := ha.shows_of_get? hget
    refine ⟨hresult, hs.registry.query_eq_bare fun e' he' hh => ?_, e.handle, e.reply .success,
      hs.registry.isPlain hshows.mem, hshows.index.symm, ?_, rfl, matches_shows ha hshows⟩
    · exact hmarked (hh ▸ hs.registry.isPlain he')
    · rw [hquery, hs.registry.query_eq hshows.mem]

/-- The first handle of the small run, as the cache and the authority see it. -/
theorem object_matches_query_small : ∃ w c reply, Run Small.created w ∧ w.contexts[0]? = some c ∧
    (MemoryAuthority.authority.query Handle.first w.authority).result = .ok reply ∧
    Matches reply Handle.first
      (c.object MemoryAuthority.authority Small.map Handle.first w.authority).result := by
  obtain ⟨w, c, block, run, hc, -⟩ := Small.exists_created
  obtain ⟨reply, hreply, hplain, -⟩ := run.object_matches_query hc Small.map_ok Handle.first
  exact ⟨w, c, reply, run, hc, hreply, hplain (.inl (by decide))⟩

/-- With a reserved bit set, the same handle still leads to the cached semaphore, and the authority
does not know it. -/
theorem object_marked_ne_query : ∃ w c block, Run Small.created w ∧ w.contexts[0]? = some c ∧
    (c.object MemoryAuthority.authority Small.map Small.marked w.authority).result =
      .ok ⟨Small.marked, .semaphore, block⟩ ∧
    (MemoryAuthority.authority.query Small.marked w.authority).result =
      .ok (.bare .invalidHandle) := by
  obtain ⟨w, c, block, run, hc, hcached⟩ := Small.exists_created
  refine ⟨w, c, block, run, hc, ?_, ?_⟩
  · rw [Context.object, hcached Small.marked rfl]
  · obtain ⟨r, hs⟩ := run.sound
    rw [hs.authority]
    refine congrArg Except.ok (hs.registry.query_eq_bare fun e he hh => ?_)
    have hp := hs.registry.isPlain he
    rw [hh] at hp
    exact absurd hp (by decide)

end World

end SharedSync
