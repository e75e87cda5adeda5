import Mathlib
import SharedSync.Proofs.HandleCache.Records
import SharedSync.Proofs.Object.Indices

/-!
# Cache — the first writer wins

What a cache of `n` blocks holds is told by the calls it has answered.  A handle with a place in
the cache has a key (`key? n`), and under each key stands what was first offered for it
(`firstFor n past`), whatever blocks the records are kept in.

* `add_of_lt`, `add_of_le`: what an addition does, by what stands under its key.
* `Reflects`: the cache holds what its past says, and its counters and blocks are those of the
  past.  `Reflects.snoc`: one more call keeps that; `Reflects.run`: so does any number.
* `first_writer_wins`: so every call is answered from the past, and no call takes back a record.
-/

namespace SharedSync.HandleCache

open Limits (recordsPerBlock)

variable {α : Type}

/-! ### Additions -/

/-- An addition without a place in the cache is counted, and that is all. -/
theorem add_of_le {c : HandleCache α} (hc : c.WellFormed) {handle : Handle}
    (h : ∀ i, index? handle = some i → c.capacity ≤ i) (kind : ObjectKind) (block : α) :
    c.add handle kind block = c.skip handle := by
  unfold add
  cases hi : index? handle with
  | none => rfl
  | some i =>
      have ht : c.blocks.touch i = (none, c.blocks) := by
        rw [Directory.touch, Directory.split_of_le hc.blocks (h i hi)]
      simp only [ht]

/-- An addition within the capacity writes a free record, and leaves one that is taken. -/
theorem add_of_lt {c : HandleCache α} (hc : c.WellFormed) {handle : Handle} {i : Nat}
    (hi : index? handle = some i) (h : i < c.capacity) (kind : ObjectKind) (block : α) :
    c.add handle kind block =
      match c.record? i with
      | none =>
          ⟨some (kind, block),
            { c with
              blocks := (c.blocks.touchChunk (i / c.blocks.chunkLength)).set i
                (.published kind block)
              publishes := c.publishes + 1 },
            [.cached handle kind]⟩
      | some record =>
          ⟨some record, { c with lostPublishes := c.lostPublishes + 1 },
            [.alreadyCached handle]⟩ := by
  have hr := Directory.touch_result hc.blocks i
  rw [if_pos (show i < c.blocks.capacity from h)] at hr
  have hs := Directory.touch_state_of_lt (d := c.blocks) h
  rcases ht : c.blocks.touch i with ⟨shown, blocks⟩
  rw [ht] at hr hs
  obtain rfl : shown = some (c.blocks.element i) := hr
  obtain rfl : blocks = c.blocks.touchChunk (i / c.blocks.chunkLength) := hs
  simp only [add, hi, ht]
  cases hrec : c.record? i with
  | none => rw [if_pos ((hc.record?_eq_none_iff i).mp hrec)]
  | some record =>
      have htag : (c.blocks.element i).tag ≠ 0 := fun hz => by
        rw [(hc.record?_eq_none_iff i).mpr hz] at hrec
        cases hrec
      -- the record is in a chunk that exists, so none is made
      have hchunk : (c.blocks.chunk? (i / c.blocks.chunkLength)).isSome := by
        by_contra hnone
        rw [Option.not_isSome_iff_eq_none] at hnone
        rw [record?, Directory.element_of_chunk?_eq_none hnone, Record.load_default] at hrec
        cases hrec
      rw [if_neg htag, Directory.touchChunk_of_isSome hchunk,
        show (c.blocks.element i).load = some record from hrec]

/-! ### What the past says -/

/-- The place of a handle in a cache of `n` blocks.  Handles below 4 have none, and neither have
those that come behind the last block. -/
def key? (n : Nat) (handle : Handle) : Option Nat :=
  let key := handle.raw.toNat / 4 - 1
  if 4 ≤ handle.raw.toNat ∧ key < n * recordsPerBlock then some key else none

/-- What a call offers for a key. -/
def Call.offer? (n key : Nat) : Call α → Option (ObjectKind × α)
  | .add handle kind block => if key? n handle = some key then some (kind, block) else none
  | .lookup _ => none

/-- What was first offered for a key. -/
def firstFor (n : Nat) (past : List (Call α)) (key : Nat) : Option (ObjectKind × α) :=
  past.findSome? fun call => call.offer? n key

/-- The keys for which something was offered. -/
def keys (n : Nat) (past : List (Call α)) : Finset Nat :=
  (Finset.range (n * recordsPerBlock)).filter fun key => (firstFor n past key).isSome

/-- Block 0 and the blocks of the keys. -/
def usedBlocks (n : Nat) (past : List (Call α)) : Finset Nat :=
  insert 0 ((keys n past).image (· / recordsPerBlock))

variable {n : Nat} {past : List (Call α)} {c : HandleCache α} {call : Call α} {handle : Handle}
  {key : Nat} {kind : ObjectKind} {block : α}

/-- The key of a handle is its index, if the cache has room for it. -/
theorem key?_eq_some_iff :
    key? n handle = some key ↔ index? handle = some key ∧ key < n * recordsPerBlock := by
  rw [index?_eq_some_iff]
  unfold key?
  simp only [Option.ite_none_right_eq_some, Option.some.injEq]
  constructor
  · rintro ⟨⟨hfour, hlt⟩, rfl⟩
    exact ⟨by omega, hlt⟩
  · rintro ⟨hq, hlt⟩
    have hk : handle.raw.toNat / 4 - 1 = key := by omega
    exact ⟨⟨by omega, by rwa [hk]⟩, hk⟩

/-- What was first offered for a key stays that. -/
theorem firstFor_append {record : ObjectKind × α} (hf : firstFor n past key = some record)
    (later : List (Call α)) : firstFor n (past ++ later) key = some record := by
  rw [firstFor, List.findSome?_append, ← firstFor, hf, Option.some_or]

/-- A further call counts only where no earlier one did. -/
theorem firstFor_snoc (n : Nat) (past : List (Call α)) (call : Call α) (key : Nat) :
    firstFor n (past ++ [call]) key = (firstFor n past key).or (call.offer? n key) := by
  rw [firstFor, List.findSome?_append, List.findSome?_singleton, firstFor]

/-- A call that offers nothing new leaves the past as it is. -/
theorem firstFor_snoc_of_taken
    (h : ∀ key, call.offer? n key ≠ none → firstFor n past key ≠ none) :
    firstFor n (past ++ [call]) = firstFor n past := by
  funext key
  rw [firstFor_snoc]
  cases hf : firstFor n past key with
  | some record => rfl
  | none =>
      rw [Option.none_or]
      by_contra hne
      exact h key hne hf

theorem firstFor_snoc_of_free (hk : key? n handle = some key) (hf : firstFor n past key = none)
    (j : Nat) : firstFor n (past ++ [.add handle kind block]) j =
      if j = key then some (kind, block) else firstFor n past j := by
  rw [firstFor_snoc, Call.offer?, hk]
  by_cases hj : j = key
  · subst hj
    rw [if_pos rfl, if_pos rfl, hf, Option.none_or]
  · rw [if_neg hj, if_neg fun h => hj (Option.some.inj h).symm, Option.or_none]

theorem mem_keys : key ∈ keys n past ↔
    key < n * recordsPerBlock ∧ (firstFor n past key).isSome := by
  rw [keys, Finset.mem_filter, Finset.mem_range]

/-- A first offer adds its key. -/
theorem keys_snoc_of_free (hk : key? n handle = some key) (hf : firstFor n past key = none) :
    keys n (past ++ [.add handle kind block]) = insert key (keys n past) := by
  ext j
  rw [Finset.mem_insert, mem_keys, mem_keys, firstFor_snoc_of_free hk hf]
  by_cases hj : j = key
  · subst hj
    simp [(key?_eq_some_iff.mp hk).2]
  · simp [hj]

/-- A first offer uses the block of its key. -/
theorem usedBlocks_snoc_of_free (hk : key? n handle = some key)
    (hf : firstFor n past key = none) :
    usedBlocks n (past ++ [.add handle kind block]) =
      insert (key / recordsPerBlock) (usedBlocks n past) := by
  rw [usedBlocks, keys_snoc_of_free hk hf, Finset.image_insert, Finset.insert_comm, usedBlocks]

/-! ### The cache reflects its past -/

/-- The cache of `n` blocks holds what its past says. -/
structure Reflects (n : Nat) (past : List (Call α)) (c : HandleCache α) : Prop where
  wellFormed : c.WellFormed
  chunkLength : c.blocks.chunkLength = recordsPerBlock
  chunkCount : c.blocks.chunkCount = n
  record : ∀ key, c.record? key = firstFor n past key
  chunk : ∀ p, p < n → ((c.blocks.chunk? p).isSome ↔ p ∈ usedBlocks n past)
  publishes : c.publishes = (keys n past).card
  counted : c.publishes + c.lostPublishes + c.overflowSkips = past.countP Call.isAdd
  allocated : c.blocks.allocated = (usedBlocks n past).card

/-- A new cache reflects an empty past. -/
theorem exists_reflects_make (hn : 1 ≤ n) :
    ∃ c : HandleCache α, make n = .ok c ∧ Reflects n [] c := by
  let d : Directory (Record α) := ⟨recordsPerBlock, Array.replicate n none, 0, 0⟩
  have hmake : make n = .ok ({ blocks := d.touchChunk 0 } : HandleCache α) := by
    rw [make, Directory.makeWithFirst, Directory.make, if_neg (by omega), if_neg (by decide)]
    rfl
  have hd : d.WellFormed :=
    Directory.wellFormed_of_replicate (show 0 < recordsPerBlock by decide) rfl
  have hcount : d.chunkCount = n := Array.size_replicate
  have hnone : ∀ p, d.chunk? p = none := Directory.chunk?_of_replicate rfl
  have helement : ∀ i, (d.touchChunk 0).element i = default := fun i =>
    (Directory.element_touchChunk hd 0 i).trans (Directory.element_of_replicate rfl i)
  have hfirst : firstFor n ([] : List (Call α)) = fun _ => none := rfl
  have hkeys : keys n ([] : List (Call α)) = ∅ := by
    ext key
    rw [mem_keys, hfirst]
    simp
  -- an empty past uses one block all the same: the first is made at once
  have hused : usedBlocks n ([] : List (Call α)) = {0} := by
    rw [usedBlocks, hkeys, Finset.image_empty, insert_empty_eq]
  refine ⟨_, hmake, ?_⟩
  constructor
  case wellFormed => exact ⟨hd.touchChunk 0, fun i => .inl (congrArg Record.tag (helement i))⟩
  case chunkLength => exact Directory.chunkLength_touchChunk d 0
  case chunkCount => exact (Directory.chunkCount_touchChunk d 0).trans hcount
  case record =>
    intro key
    rw [record?, helement, Record.load_default, hfirst]
  case chunk =>
    intro p hp
    rw [hused, Finset.mem_singleton, Directory.chunk?_touchChunk]
    by_cases h0 : p = 0
    · rw [if_pos ⟨h0, by omega, hnone 0⟩]
      simp [h0]
    · rw [if_neg fun h => h0 h.1, hnone]
      simp [h0]
  case publishes => rw [hkeys, Finset.card_empty]
  case counted => rfl
  case allocated =>
    rw [hused, Finset.card_singleton]
    exact Directory.allocated_touchChunk (by omega) (hnone 0)

namespace Reflects

theorem capacity_eq (h : Reflects n past c) : c.capacity = n * recordsPerBlock := by
  rw [capacity, Directory.capacity, h.chunkCount, h.chunkLength]

/-- A handle without a key is skipped. -/
theorem add_of_none (h : Reflects n past c) (hk : key? n handle = none) (kind : ObjectKind)
    (block : α) : c.add handle kind block = c.skip handle := by
  refine add_of_le h.wellFormed (fun i hi => ?_) kind block
  rw [h.capacity_eq]
  by_contra hlt
  rw [key?_eq_some_iff.mpr ⟨hi, Nat.lt_of_not_le hlt⟩] at hk
  cases hk

/-- What an addition does depends on the first offer for its key. -/
theorem add_of_some (h : Reflects n past c) (hk : key? n handle = some key) (kind : ObjectKind)
    (block : α) : c.add handle kind block =
      match firstFor n past key with
      | none =>
          ⟨some (kind, block),
            { c with
              blocks := (c.blocks.touchChunk (key / recordsPerBlock)).set key
                (.published kind block)
              publishes := c.publishes + 1 },
            [.cached handle kind]⟩
      | some record =>
          ⟨some record, { c with lostPublishes := c.lostPublishes + 1 },
            [.alreadyCached handle]⟩ := by
  obtain ⟨hi, hlt⟩ := key?_eq_some_iff.mp hk
  rw [add_of_lt h.wellFormed hi (h.capacity_eq ▸ hlt), h.record, h.chunkLength]

/-- A look-up shows the first offer for the handle's key. -/
theorem get?_eq (h : Reflects n past c) (handle : Handle) :
    c.get? handle = (key? n handle).bind (firstFor n past) := by
  rw [get?_eq_record?]
  cases hk : key? n handle with
  | some key =>
      rw [(key?_eq_some_iff.mp hk).1, Option.bind_some, Option.bind_some, h.record]
  | none =>
      cases hi : index? handle with
      | none => rfl
      | some i =>
          -- the index lies behind the last block, where nothing is held
          have hle : c.blocks.capacity ≤ i := by
            by_contra hlt
            rw [show c.blocks.capacity = n * recordsPerBlock from h.capacity_eq] at hlt
            rw [key?_eq_some_iff.mpr ⟨hi, Nat.lt_of_not_le hlt⟩] at hk
            cases hk
          rw [Option.bind_some, Option.bind_none, record?, Directory.element,
            Directory.get?_of_le h.wellFormed.blocks hle, Option.getD_none, Record.load_default]

/-- A call that offers nothing new. -/
theorem snoc_of_taken (h : Reflects n past c) {c' : HandleCache α}
    (htaken : ∀ key, call.offer? n key ≠ none → firstFor n past key ≠ none)
    (hblocks : c'.blocks = c.blocks) (hpublishes : c'.publishes = c.publishes)
    (hcounted : c'.publishes + c'.lostPublishes + c'.overflowSkips =
      c.publishes + c.lostPublishes + c.overflowSkips + call.isAdd.toNat) :
    Reflects n (past ++ [call]) c' := by
  have hfirst := firstFor_snoc_of_taken htaken
  have hkeys : keys n (past ++ [call]) = keys n past := by rw [keys, hfirst, keys]
  have hused : usedBlocks n (past ++ [call]) = usedBlocks n past := by
    rw [usedBlocks, hkeys, usedBlocks]
  constructor
  case wellFormed => exact ⟨hblocks ▸ h.wellFormed.blocks, hblocks ▸ h.wellFormed.settled⟩
  case chunkLength => rw [hblocks, h.chunkLength]
  case chunkCount => rw [hblocks, h.chunkCount]
  case record =>
    intro key
    rw [record?, hblocks, hfirst]
    exact h.record key
  case chunk => rw [hblocks, hused]; exact h.chunk
  case publishes => rw [hpublishes, hkeys, h.publishes]
  case counted =>
    rw [hcounted, h.counted, List.countP_append, List.countP_singleton]
    cases call.isAdd <;> rfl
  case allocated => rw [hblocks, hused, h.allocated]

/-- A call that offers the first record for its key. -/
theorem snoc_of_free (h : Reflects n past c) (hk : key? n handle = some key)
    (hf : firstFor n past key = none) (kind : ObjectKind) (block : α) :
    Reflects n (past ++ [.add handle kind block])
      { c with
        blocks := (c.blocks.touchChunk (key / recordsPerBlock)).set key (.published kind block)
        publishes := c.publishes + 1 } := by
  obtain ⟨-, hlt⟩ := key?_eq_some_iff.mp hk
  have hw := h.wellFormed.blocks
  have hcap : key < c.blocks.capacity := by
    rwa [show c.blocks.capacity = n * recordsPerBlock from h.capacity_eq]
  have htouch : (c.blocks.touch key).2 = c.blocks.touchChunk (key / recordsPerBlock) := by
    rw [Directory.touch_state_of_lt hcap, h.chunkLength]
  have hwithin : key < (c.blocks.touchChunk (key / recordsPerBlock)).capacity := by
    rwa [Directory.capacity_touchChunk]
  have helement : ∀ j, ((c.blocks.touchChunk (key / recordsPerBlock)).set key
      (.published kind block)).element j =
        if j = key then .published kind block else c.blocks.element j :=
    htouch ▸ Directory.element_touch_set hw hcap (.published kind block)
  have hblock : key / recordsPerBlock < n :=
    Nat.div_lt_of_lt_mul (by rwa [Nat.mul_comm])
  constructor
  case wellFormed =>
    refine ⟨(hw.touchChunk _).set hwithin _, fun j => ?_⟩
    rw [helement]
    split
    · exact .inr ⟨kind, block, rfl⟩
    · exact h.wellFormed.settled j
  case chunkLength =>
    rw [Directory.chunkLength_set, Directory.chunkLength_touchChunk, h.chunkLength]
  case chunkCount =>
    rw [Directory.chunkCount_set, Directory.chunkCount_touchChunk, h.chunkCount]
  case record =>
    intro j
    rw [record?, helement, firstFor_snoc_of_free hk hf]
    split
    · exact Record.load_published kind block
    · exact h.record j
  -- only the block of the new key can come to be
  case chunk =>
    intro p hp
    rw [Directory.isSome_chunk?_set hwithin, Directory.chunk?_touchChunk,
      usedBlocks_snoc_of_free hk hf, Finset.mem_insert]
    by_cases hq : p = key / recordsPerBlock
    · subst hq
      cases hc : c.blocks.chunk? (key / recordsPerBlock) with
      | none => simp [h.chunkCount, hblock]
      | some chunk => simp
    · simp [hq, h.chunk p hp]
  case publishes =>
    have hnew : key ∉ keys n past := fun hmem => by
      have hsome := (mem_keys.mp hmem).2
      rw [hf] at hsome
      cases hsome
    rw [keys_snoc_of_free hk hf, Finset.card_insert_of_notMem hnew, h.publishes]
  case counted =>
    have hcounted := h.counted
    rw [List.countP_append, List.countP_singleton, ← hcounted]
    simp only [Call.isAdd, if_true]
    omega
  case allocated =>
    rw [Directory.allocated_set, usedBlocks_snoc_of_free hk hf]
    -- the key is the first of its block, or the block is there already
    cases hc : c.blocks.chunk? (key / recordsPerBlock) with
    | none =>
        have hnew : key / recordsPerBlock ∉ usedBlocks n past := fun hmem => by
          have hsome := (h.chunk _ hblock).mpr hmem
          rw [hc] at hsome
          cases hsome
        rw [Directory.allocated_touchChunk (h.chunkCount.symm ▸ hblock) hc, h.allocated,
          Finset.card_insert_of_notMem hnew]
    | some chunk =>
        have hmem := (h.chunk _ hblock).mp (by rw [hc]; rfl)
        rw [Directory.touchChunk_of_isSome (by rw [hc]; rfl), h.allocated,
          Finset.insert_eq_of_mem hmem]

/-- **One more call.** -/
theorem snoc (h : Reflects n past c) (call : Call α) :
    Reflects n (past ++ [call]) (c.answer call).state := by
  cases call with
  | lookup handle => exact h.snoc_of_taken (fun key hne => absurd rfl hne) rfl rfl rfl
  | add handle kind block =>
      rw [answer]
      cases hk : key? n handle with
      | none =>
          rw [h.add_of_none hk]
          refine h.snoc_of_taken (fun key hne => absurd ?_ hne) rfl rfl ?_
          · rw [Call.offer?, hk, if_neg (Option.some_ne_none key).symm]
          · simp only [skip, Call.isAdd, Bool.toNat_true]
            omega
      | some key =>
          rw [h.add_of_some hk]
          cases hf : firstFor n past key with
          | none => exact h.snoc_of_free hk hf kind block
          | some record =>
              refine h.snoc_of_taken (fun j hne => ?_) rfl rfl ?_
              · have hj : j = key := by
                  by_contra hj
                  rw [Call.offer?, hk, if_neg fun h => hj (Option.some.inj h).symm] at hne
                  exact hne rfl
                rw [hj, hf]
                exact Option.some_ne_none _
              · simp only [Call.isAdd, Bool.toNat_true]
                omega

/-- A cache that reflects the past reflects it after more calls. -/
theorem run (h : Reflects n past c) (calls : List (Call α)) :
    Reflects n (past ++ calls) (c.run calls) := by
  induction calls generalizing past c with
  | nil => rwa [List.append_nil]
  | cons call rest ih =>
      have := ih (h.snoc call)
      rwa [List.append_assoc] at this

end Reflects

/-- After `past`, the cache of `n` blocks is the map of what was first offered for each key, and
its counters are those of the map. -/
structure FirstWins (n : Nat) (past : List (Call α)) (c : HandleCache α) : Prop where
  /-- A key holds what was first offered for it. -/
  held : ∀ key, c.record? key = firstFor n past key
  /-- An offer for a free key is taken, and changes no other key. -/
  free : ∀ handle kind block key, key? n handle = some key → firstFor n past key = none →
    (c.answer (.add handle kind block)).result = some (kind, block) ∧
      ∀ j, (c.answer (.add handle kind block)).state.record? j =
        if j = key then some (kind, block) else c.record? j
  /-- An offer for a key that is taken is answered with what stands there. -/
  taken : ∀ handle kind block key record, key? n handle = some key →
    firstFor n past key = some record →
      (c.answer (.add handle kind block)).result = some record ∧
        (c.answer (.add handle kind block)).state =
          { c with lostPublishes := c.lostPublishes + 1 }
  /-- An offer without a key is counted, and that is all. -/
  keyless : ∀ handle kind block, key? n handle = none →
    (c.answer (.add handle kind block)).result = none ∧
      (c.answer (.add handle kind block)).state =
        { c with overflowSkips := c.overflowSkips + 1 }
  /-- A look-up shows the key and leaves the cache as it is. -/
  lookup : ∀ handle, (c.answer (.lookup handle)).result = (key? n handle).bind (firstFor n past) ∧
    (c.answer (.lookup handle)).state = c
  /-- What a key holds it holds ever after. -/
  kept : ∀ later key record, c.record? key = some record →
    (c.run later).record? key = some record
  publishes : c.publishes = (keys n past).card
  additions : c.publishes + c.lostPublishes + c.overflowSkips = past.countP Call.isAdd
  allocated : c.blocks.allocated = (usedBlocks n past).card

/-- **The cache is a map in which the first writer of a key wins.** -/
theorem first_writer_wins (hn : 1 ≤ n) (past : List (Call α)) :
    ∃ c : HandleCache α, make n = .ok c ∧ FirstWins n past (c.run past) := by
  obtain ⟨c, hmake, hnew⟩ := exists_reflects_make (α := α) hn
  have h : Reflects n past (c.run past) := by simpa using hnew.run past
  refine ⟨c, hmake, ?_⟩
  constructor
  case held => exact h.record
  case free =>
    intro handle kind block key hk hf
    have hsnoc := h.snoc (.add handle kind block)
    refine ⟨by rw [answer, h.add_of_some hk, hf], fun j => ?_⟩
    rw [hsnoc.record, firstFor_snoc_of_free hk hf, h.record]
  case taken =>
    intro handle kind block key record hk hf
    rw [answer, h.add_of_some hk, hf]
    exact ⟨rfl, rfl⟩
  case keyless =>
    intro handle kind block hk
    rw [answer, h.add_of_none hk]
    exact ⟨rfl, rfl⟩
  case lookup => exact fun handle => ⟨h.get?_eq handle, rfl⟩
  case kept =>
    intro later key record hrec
    rw [h.record] at hrec
    rw [(h.run later).record, firstFor_append hrec]
  case publishes => exact h.publishes
  case additions => exact h.counted
  case allocated => exact h.allocated

/-- Two blocks, two handles of one key, a handle of the second block, and one without a key. -/
theorem first_writer_wins_small : 1 ≤ 2 ∧ ∃ c : HandleCache Nat, make 2 = .ok c ∧
    FirstWins 2
      [.add ⟨4, by decide⟩ .semaphore 1, .add ⟨7, by decide⟩ .semaphore 2,
        .add ⟨16388, by decide⟩ .semaphore 3, .add ⟨3, by decide⟩ .semaphore 4]
      (c.run [.add ⟨4, by decide⟩ .semaphore 1, .add ⟨7, by decide⟩ .semaphore 2,
        .add ⟨16388, by decide⟩ .semaphore 3, .add ⟨3, by decide⟩ .semaphore 4]) :=
  ⟨by decide, first_writer_wins (by decide) _⟩

end SharedSync.HandleCache
