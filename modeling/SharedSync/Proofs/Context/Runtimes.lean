import SharedSync.Context
import SharedSync.Proofs.HandleCache.Records
import SharedSync.Proofs.Pool.Blocks
import SharedSync.Proofs.Registry.Creation

/-!
# Context — a runtime and the registry behind it

A runtime has two memories of its own, the mapped pages and the cached handles.  `Agrees` says
that both tell of objects what the registry tells of them; `Extends` says that neither forgets.

* `Agrees.remembered`: remembering an object keeps the runtime in agreement and forgets nothing.
* `Agrees.shows_of_get?`: a cached handle leads to the block of the object with its index.
-/

namespace SharedSync

namespace Runtime

/-- What the runtime knows of objects is so in the registry. -/
structure Agrees (r : Registry) (rt : Runtime) : Prop where
  pool : rt.pool.WellFormed
  spacious : rt.pool.Spacious
  cache : rt.cache.WellFormed
  cached : ∀ (i : Nat) (kind : ObjectKind) (block : StateBlock),
    rt.cache.record? i = some (kind, block) →
      ∃ e ∈ r.objects, HandleCache.index? e.handle = some i ∧
        rt.pool.blockAt? e.slot = some block

/-- `rt'` knows every block and every record that `rt` knows. -/
structure Extends (rt rt' : Runtime) : Prop where
  blockAt? : ∀ (slot : Slot) (block : StateBlock),
    rt.pool.blockAt? slot = some block → rt'.pool.blockAt? slot = some block
  record? : ∀ (i : Nat) (record : ObjectKind × StateBlock),
    rt.cache.record? i = some record → rt'.cache.record? i = some record

/-- The object is a view of `e`: its handle leads there, and its block is the block of `e`. -/
structure Shows (r : Registry) (rt : Runtime) (object : SyncObject) (e : Entry) : Prop where
  mem : e ∈ r.objects
  index : HandleCache.index? object.handle = HandleCache.index? e.handle
  block : rt.pool.blockAt? e.slot = some object.block

variable {r r' : Registry} {rt rt' : Runtime} {e : Entry} {object : SyncObject}

theorem Extends.refl (rt : Runtime) : Extends rt rt := ⟨fun _ _ h => h, fun _ _ h => h⟩

theorem Extends.get? (h : Extends rt rt') {handle : Handle} {record : ObjectKind × StateBlock}
    (hc : rt.cache.get? handle = some record) : rt'.cache.get? handle = some record := by
  rw [HandleCache.get?_eq_record?] at hc ⊢
  obtain ⟨i, hi, hrec⟩ := Option.bind_eq_some_iff.mp hc
  rw [hi, Option.bind_some, h.record? i record hrec]

theorem Agrees.mono (ha : Agrees r rt) (h : r.Extends r') : Agrees r' rt := by
  refine ⟨ha.pool, ha.spacious, ha.cache, ?_⟩
  intro i kind block hrec
  obtain ⟨e, he, hi, hb⟩ := ha.cached i kind block hrec
  exact ⟨e, h.mem e he, hi, hb⟩

theorem Shows.mono (hs : Shows r rt object e) (hr : r.Extends r') (h : Extends rt rt') :
    Shows r' rt' object e :=
  ⟨hr.mem e hs.mem, hs.index, h.blockAt? _ _ hs.block⟩

/-- A view's block is the object's block in the file. -/
theorem Shows.fileOffset (ha : Agrees r rt) (hs : Shows r rt object e) :
    object.block.fileOffset = e.slot.byteOffset :=
  ha.pool.fileOffset_blockAt? hs.block

/-- What is cached for a handle is a view of its object. -/
theorem Agrees.shows_of_get? (ha : Agrees r rt) {handle : Handle} {kind : ObjectKind}
    {block : StateBlock} (h : rt.cache.get? handle = some (kind, block)) :
    ∃ e, Shows r rt ⟨handle, kind, block⟩ e := by
  rw [HandleCache.get?_eq_record?] at h
  obtain ⟨i, hi, hrec⟩ := Option.bind_eq_some_iff.mp h
  obtain ⟨e, he, hei, hb⟩ := ha.cached i kind block hrec
  exact ⟨e, he, hi.trans hei.symm, hb⟩

/-! ### Remembering an object -/

/-- What remembering `e` leaves. -/
structure Remembered (r : Registry) (map : Mapper) (rt : Runtime) (e : Entry)
    (shown : Option StateBlock) (rt' : Runtime) : Prop where
  agrees : Agrees r rt'
  extended : Extends rt rt'
  block : shown = rt'.pool.blockAt? e.slot
  mapped : (∀ request, ∃ base, map request = .ok base) → shown.isSome
  cached : ∀ i : Nat, shown.isSome → HandleCache.index? e.handle = some i →
    i < rt.cache.capacity → rt'.cache.record? i ≠ none

variable {map : Mapper}

/-- Remembering an object of the registry keeps the runtime in agreement. -/
theorem Agrees.remembered (ha : Agrees r rt) (he : e ∈ r.objects) (map : Mapper)
    (kind : ObjectKind) :
    Remembered r map rt e (rt.remember map e.handle kind e.slot).result
      (rt.remember map e.handle kind e.slot).state := by
  rcases hb : rt.pool.block map e.slot with ⟨shown, pool, events⟩
  have hs := Pool.showing_block ha.pool map e.slot
  rw [hb] at hs
  simp only at hs
  have hpool := hs.wellFormed ha.pool
  have hspacious := hs.spacious ha.spacious
  have hmono : ∀ s b, rt.pool.blockAt? s = some b → pool.blockAt? s = some b :=
    fun s b => hs.blockAt?_mono ha.pool
  have hshown := hs.result_eq ha.pool
  have hmapped := fun hmap => hs.isSome hmap ha.spacious
  simp only [remember, hb]
  cases shown with
  | none =>
      refine ⟨⟨hpool, hspacious, ha.cache, ?_⟩, ⟨hmono, fun _ _ h => h⟩, hshown, hmapped, nofun⟩
      intro i k b hrec
      obtain ⟨e', he', hi, hb'⟩ := ha.cached i k b hrec
      exact ⟨e', he', hi, hmono _ _ hb'⟩
  | some block =>
      have hadd := HandleCache.addition_add ha.cache e.handle kind block
      refine ⟨⟨hpool, hspacious, hadd.wellFormed ha.cache, ?_⟩,
        ⟨hmono, fun _ _ => hadd.record?_mono ha.cache⟩, hshown, hmapped,
        fun i _ hi hlt => hadd.record?_ne_none ha.cache hi hlt⟩
      intro i k b hrec
      -- a record that was there before is of a block that is still in memory
      rw [hadd.record?_eq ha.cache] at hrec
      split at hrec
      · next hnew =>
          cases hrec
          exact ⟨e, he, hnew.1, hshown.symm⟩
      · obtain ⟨e', he', hi, hb'⟩ := ha.cached i k b hrec
        exact ⟨e', he', hi, hmono _ _ hb'⟩

/-- The block that was remembered is a view of the object. -/
theorem Remembered.shows (h : Remembered r map rt e (some object.block) rt') (he : e ∈ r.objects)
    (hh : object.handle = e.handle) : Shows r rt' object e :=
  ⟨he, congrArg HandleCache.index? hh, h.block.symm⟩

end Runtime

end SharedSync
