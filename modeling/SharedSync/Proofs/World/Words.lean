import SharedSync.Proofs.World.Run

/-!
# World — shared words

Objects have their words in one file, and every context sees them there.  So each view of an
object, from whichever context and look-up, reads what was last stored through any view of that
object, and before that what its creation put there.

* `Records trace r`: the file of `r` holds in each word of each created object the last value that
  was stored to it in `trace`.  `Change.records`: every step keeps this.
* `Run.view_reads_last_store`: so every view reads that value, and a step that does not store to
  the object changes none of its words.
-/

namespace SharedSync

/-- What a creation puts into the words of a new object. -/
def CreateRequest.initialWord (request : CreateRequest) : BlockWord → UInt32
  | .first => request.low.toUInt32
  | .second => request.high.toUInt32

/-- A block that was just written holds what the request asked for. -/
theorem Registry.Holds.word_eq {file : FileContents} {slot : Slot} {request : CreateRequest}
    (h : Registry.Holds file slot request) (word : BlockWord) :
    file.word (slot.byteOffset + word.byteOffset) = request.initialWord word := by
  cases word with
  | first => exact h.low
  | second => exact h.high

/-- Two words of blocks in slots are one word or do not meet. -/
theorem word_store_slot (file : FileContents) (slot other : Slot) (word word' : BlockWord)
    (value : UInt32) :
    (file.storeWord (slot.byteOffset + word.byteOffset) value).word
        (other.byteOffset + word'.byteOffset) =
      if slot = other ∧ word = word' then value
      else file.word (other.byteOffset + word'.byteOffset) := by
  by_cases h : slot = other ∧ word = word'
  · obtain ⟨rfl, rfl⟩ := h
    rw [if_pos ⟨rfl, rfl⟩]
    exact FileContents.word_storeWord_self file _ value
  · rw [if_neg h]
    refine FileContents.word_storeWord_of_disjoint file value ?_
    by_cases hs : slot = other
    · -- one block, and the words are four bytes apart
      subst hs
      have hw : word ≠ word' := fun hw => h ⟨rfl, hw⟩
      cases word <;> cases word' <;> simp only [BlockWord.byteOffset] <;>
        first | omega | exact absurd rfl hw
    · -- two blocks, eight bytes apart
      have hn : slot.number.toNat ≠ other.number.toNat := fun e =>
        hs (Slot.byteOffset_inj (congrArg (· * Limits.stateBlockBytes) e))
      have hle : ∀ w : BlockWord, w.byteOffset ≤ 4 := fun w => by cases w <;> decide
      have h₁ := hle word
      have h₂ := hle word'
      simp only [Slot.byteOffset, Limits.stateBlockBytes]
      omega

namespace World

open HandleCache (index?)

/-- The value last stored to a word of the handle's object. -/
def lastStore? (handle : Handle) (word : BlockWord) : List Act → Option UInt32
  | .store _ object w value :: earlier =>
      if index? object.handle = index? handle ∧ w = word then some value
      else lastStore? handle word earlier
  | _ :: earlier => lastStore? handle word earlier
  | [] => none

variable {trace : List Act} {w w' : World} {r r' : Registry} {act : Act} {e : Entry}

/-- The act stores nothing to the object of this index. -/
def Act.Spares (index : Option Nat) : Act → Prop
  | .store _ object _ _ => index? object.handle ≠ index
  | _ => True

/-- An act that spares the object is no store to it. -/
theorem lastStore?_cons {handle : Handle} {word : BlockWord} (h : act.Spares (index? handle)) :
    lastStore? handle word (act :: trace) = lastStore? handle word trace := by
  cases act with
  | store i object w value =>
      rw [lastStore?, if_neg]
      exact fun hw => h hw.1
  | _ => rfl

/-- Acts that all spare the object leave no store to it. -/
theorem lastStore?_eq_none {handle : Handle} {word : BlockWord}
    (h : ∀ act ∈ trace, act.Spares (index? handle)) : lastStore? handle word trace = none := by
  induction trace with
  | nil => rfl
  | cons act earlier ih =>
      rw [lastStore?_cons (h act (List.mem_cons_self ..))]
      exact ih fun act' hact => h act' (List.mem_cons_of_mem _ hact)

/-! ### What the file records -/

/-- The file holds in each word of a created object what was last stored there. -/
def Records (trace : List Act) (r : Registry) : Prop :=
  ∀ (i : Nat) (request : CreateRequest) (handle : Handle) (slot : Slot),
    .create i request (.ok ⟨.success, handle, slot⟩) ∈ trace → ∀ word : BlockWord,
      r.file.word (slot.byteOffset + word.byteOffset) =
        (lastStore? handle word trace).getD (request.initialWord word)

/-- Every object was made by a creation. -/
def Covers (trace : List Act) (r : Registry) : Prop :=
  ∀ e ∈ r.objects, ∃ i request, .create i request (.ok ⟨.success, e.handle, e.slot⟩) ∈ trace

/-- The words of an object were as recorded, and are so after the act. -/
def Keeps (trace : List Act) (act : Act) (r r' : Registry) (e : Entry) : Prop :=
  ∀ (word : BlockWord) (initial : UInt32),
    r.file.word (e.slot.byteOffset + word.byteOffset) =
        (lastStore? e.handle word trace).getD initial →
      r'.file.word (e.slot.byteOffset + word.byteOffset) =
        (lastStore? e.handle word (act :: trace)).getD initial

theorem Keeps.of_spares (hspares : act.Spares (index? e.handle))
    (hwords : ∀ word : BlockWord, r'.file.word (e.slot.byteOffset + word.byteOffset) =
      r.file.word (e.slot.byteOffset + word.byteOffset)) : Keeps trace act r r' e := by
  intro word initial h
  rw [hwords word, lastStore?_cons hspares, h]

/-- The record goes on if the objects keep theirs and a new object starts one. -/
theorem Records.cons (h : Records trace r) (hall : ∀ act ∈ trace, act.Stands w r)
    (hold : ∀ e ∈ r.objects, Keeps trace act r r' e)
    (hnew : ∀ i request handle slot, act = .create i request (.ok ⟨.success, handle, slot⟩) →
      ∀ word : BlockWord, r'.file.word (slot.byteOffset + word.byteOffset) =
        (lastStore? handle word (act :: trace)).getD (request.initialWord word)) :
    Records (act :: trace) r' := by
  intro i request handle slot hc word
  rcases List.mem_cons.mp hc with he | hc
  · exact hnew i request handle slot he.symm word
  · obtain ⟨e, he, hh, hs, -⟩ := hall _ hc
    obtain rfl : handle = e.handle := hh
    obtain rfl : slot = e.slot := hs
    exact hold e he word _ (h i request _ _ hc word)

/-- Nothing was stored to an object that is not there yet. -/
theorem spares_of_next (hr : r.WellFormed) (hall : ∀ act ∈ trace, act.Stands w r)
    (hnext : e.handle.raw.toNat = 4 * (r.firstIndex.toNat + r.objects.size + 1)) :
    ∀ act ∈ trace, act.Spares (index? e.handle) := by
  intro act hact
  cases act with
  | store i object word value =>
      obtain ⟨rt, e', -, hshows⟩ := hall _ hact
      intro hi
      have hi' := hr.index?_eq hshows.mem
      have hlt := (hr.numbered_mem hshows.mem).1
      rw [← hshows.index, hi, HandleCache.index?_eq_some_iff, hnext] at hi'
      omega
  | _ => trivial

/-- A store through a view keeps the record of its object and of all others. -/
theorem keeps_store (hr : r.WellFormed) {i : Nat} {object : SyncObject} {word : BlockWord}
    {value : UInt32} {e₀ : Entry} (he₀ : e₀ ∈ r.objects)
    (hi : index? object.handle = index? e₀.handle)
    (ho : object.block.fileOffset = e₀.slot.byteOffset) (he : e ∈ r.objects) :
    Keeps trace (.store i object word value) r
      { r with file := object.block.storeWord r.file word value } e := by
  intro word' initial h
  have hsame : e₀.slot = e.slot ↔ index? object.handle = index? e.handle := by
    rw [hi]
    exact ⟨fun hs => by rw [hr.eq_of_slot he₀ he hs], fun hx => by rw [hr.eq_of_index? he₀ he hx]⟩
  simp only [lastStore?, StateBlock.storeWord, ho, word_store_slot, hsame]
  by_cases hw : index? object.handle = index? e.handle ∧ word = word'
  · rw [if_pos hw, if_pos hw, Option.getD_some]
  · rw [if_neg hw, if_neg hw, h]

/-- **Every step keeps the record.** -/
theorem Change.records (hs : w.Sound r) (hall : ∀ act ∈ trace, act.Stands w r)
    (h : Change trace w r act w' r') (hrec : Records trace r) : Records (act :: trace) r' := by
  cases h with
  | opened => exact hrec.cons hall (fun e _ => .of_spares trivial fun _ => rfl) nofun
  | lookup => exact hrec.cons hall (fun e _ => .of_spares trivial fun _ => rfl) nofun
  | cachedLookup => exact hrec.cons hall (fun e _ => .of_spares trivial fun _ => rfl) nofun
  | @create i c map rt request answer r' rt' context runtime making =>
      have hold : ∀ e ∈ r.objects, Keeps trace (.create i request answer) r r' e :=
        fun e he => .of_spares trivial (making.word_eq hs.registry he)
      cases making with
      | denied => exact hrec.cons hall hold nofun
      | opened => exact hrec.cons hall hold nofun
      | @made e file shown rt' new next below holds kept =>
          refine hrec.cons hall hold ?_
          rintro i' request' handle slot ⟨⟩ word
          -- no view can have shown the new object before, so nothing was stored to it
          show _ = (lastStore? e.handle word trace).getD _
          rw [lastStore?_eq_none (spares_of_next hs.registry hall next.handle), Option.getD_none]
          exact holds.word_eq word
  | @store i object word value view =>
      obtain ⟨rt, e₀, hrt, hshows⟩ := view.views hall
      exact hrec.cons hall (fun e he => keeps_store hs.registry hshows.mem hshows.index
        (hshows.fileOffset (hs.agrees hrt)) he) nofun

/-- An object that is made is made by an act. -/
theorem Change.covers (h : Change trace w r act w' r') (hc : Covers trace r) :
    Covers (act :: trace) r' := by
  have later : ∀ e ∈ r.objects,
      ∃ i request, .create i request (.ok ⟨.success, e.handle, e.slot⟩) ∈ act :: trace :=
    fun e he => by
      obtain ⟨i, request, hmem⟩ := hc e he
      exact ⟨i, request, List.mem_cons_of_mem _ hmem⟩
  cases h with
  | opened => exact later
  | lookup => exact later
  | cachedLookup => exact later
  | store => exact later
  | create _ _ making =>
      cases making with
      | denied => exact later
      | opened => exact later
      | made =>
          intro e he
          rcases Registry.mem_insert.mp he with he | rfl
          · exact later e he
          · exact ⟨_, _, List.mem_cons_self ..⟩

/-- After every run, the words are those that the acts left. -/
theorem Run.records (h : Run trace w) :
    ∃ r, w.Sound r ∧ (∀ act ∈ trace, act.Stands w r) ∧ Records trace r ∧ Covers trace r := by
  induction h with
  | start named opens made =>
      obtain ⟨path, size, rfl⟩ := of_create made
      obtain ⟨r, hs, hall⟩ := (Run.start named opens made).stands
      obtain rfl : Registry.start path size _ = r :=
        Option.some.inj (congrArg MemoryAuthority.registry hs.authority)
      exact ⟨_, hs, hall, nofun, nofun⟩
  | step _ step ih =>
      obtain ⟨r, hs, hall, hrec, hcov⟩ := ih
      obtain ⟨r', hc⟩ := step.change hs
      refine ⟨r', hc.sound hs, List.forall_mem_cons.mpr ⟨hc.stands hs hall, fun act hact => ?_⟩,
        hc.records hs hall hrec, hc.covers hcov⟩
      exact (hall act hact).mono (hc.extends_registry hs) hc.extends

/-- What the words of an object hold does not change in a step that spares it. -/
theorem Records.word_eq (h : Records trace r) (h' : Records (act :: trace) r') {i : Nat}
    {request : CreateRequest} (hc : .create i request (.ok ⟨.success, e.handle, e.slot⟩) ∈ trace)
    (hspares : act.Spares (index? e.handle)) (word : BlockWord) :
    r'.file.word (e.slot.byteOffset + word.byteOffset) =
      r.file.word (e.slot.byteOffset + word.byteOffset) := by
  rw [h i request _ _ hc word, h' i request _ _ (List.mem_cons_of_mem _ hc) word,
    lastStore?_cons hspares]

theorem toInt32_toUInt32 (a : Int32) : a.toUInt32.toInt32 = a := by
  cases a
  rfl

/-- The block of a slot lies in pages that hold a byte of the file. -/
theorem isBacked_of_le {block : StateBlock} {file : FileContents}
    (h : block.fileOffset + Limits.stateBlockBytes ≤ file.size) (page : PageSize) :
    block.isBacked page file = true := by
  -- the file ends in the last of its pages
  have hpages : file.size ≤ (file.size + page.bytes - 1) / page.bytes * page.bytes := by
    have hdiv := Nat.div_add_mod' (file.size + page.bytes - 1) page.bytes
    have hmod := Nat.mod_lt (file.size + page.bytes - 1) page.bytes_pos
    omega
  exact decide_eq_true (h.trans hpages)

/-- **Every view of an object reads in each word what was last stored there**, through whichever
view and context, or else what the object's creation put there.  No step changes that but a store
to the object itself. -/
theorem Run.view_reads_last_store (h : Run trace w) (hw : w.authority = ⟨some r⟩)
    (he : e ∈ r.objects) :
    ∃ k request, .create k request (.ok ⟨.success, e.handle, e.slot⟩) ∈ trace ∧
      ∀ i object, Given trace i object → index? object.handle = index? e.handle →
        (∀ page, object.block.isBacked page r.file = true) ∧
        (∀ word, object.block.word r.file word =
          (lastStore? e.handle word trace).getD (request.initialWord word)) ∧
        (lastStore? e.handle .first trace = none →
          (object.block.words r.file).count = request.low) ∧
        (lastStore? e.handle .second trace = none →
          (object.block.words r.file).max = request.high) ∧
        ∀ act w' r', Step trace w act w' → w'.authority = ⟨some r'⟩ →
          (∀ j other word value, act = .store j other word value →
            ∃ e' ∈ r.objects, e'.handle ≠ e.handle ∧ index? other.handle = index? e'.handle) →
          ∀ word, object.block.word r'.file word = object.block.word r.file word := by
  obtain ⟨r₀, hs, hall, hrec, hcov⟩ := h.records
  obtain rfl : r = r₀ :=
    Option.some.inj (congrArg MemoryAuthority.registry (hw.symm.trans hs.authority))
  obtain ⟨k, request, hc⟩ := hcov e he
  refine ⟨k, request, hc, ?_⟩
  intro i object hgiven hi
  obtain ⟨rt, e₀, hrt, hshows⟩ := hgiven.views hall
  -- handles of one index lead to one object
  obtain rfl : e₀ = e := hs.registry.eq_of_index? hshows.mem he (hshows.index.symm.trans hi)
  have ho := hshows.fileOffset (hs.agrees hrt)
  have hword : ∀ word, object.block.word r.file word =
      (lastStore? e₀.handle word trace).getD (request.initialWord word) := fun word => by
    rw [StateBlock.word, ho, hrec k request _ _ hc word]
  refine ⟨isBacked_of_le (ho ▸ hs.registry.block_le_size he), hword, fun hn => ?_, fun hn => ?_,
    fun act w' r' step hw' hother word => ?_⟩
  · show (object.block.word r.file .first).toInt32 = request.low
    rw [hword, hn]
    exact toInt32_toUInt32 _
  · show (object.block.word r.file .second).toInt32 = request.high
    rw [hword, hn]
    exact toInt32_toUInt32 _
  · obtain ⟨r₁, hchange⟩ := step.change hs
    have hs₁ := hchange.sound hs
    obtain rfl : r' = r₁ :=
      Option.some.inj (congrArg MemoryAuthority.registry (hw'.symm.trans hs₁.authority))
    -- a store through a view of another object has another index
    have hspares : act.Spares (index? e₀.handle) := by
      cases act with
      | store j other word value =>
          obtain ⟨e', he', hne, hi'⟩ := hother j other word value rfl
          exact fun hx => hne (congrArg Entry.handle
            (hs.registry.eq_of_index? he' he (hi'.symm.trans hx)))
      | _ => trivial
    rw [StateBlock.word, StateBlock.word, ho]
    exact hrec.word_eq (hchange.records hs hall hrec) hc hspares word

/-- After a store of 7 to the count of the small run's semaphore, its view reads 7, and the
maximum that it was made with. -/
theorem view_reads_last_store_small : ∃ block w r,
    Run (.store 0 ⟨Handle.first, .semaphore, block⟩ .first 7 ::
      .cachedLookup 0 Handle.first (some ⟨Handle.first, .semaphore, block⟩) :: Small.created) w ∧
    w.authority = ⟨some r⟩ ∧ block.word r.file .first = 7 ∧ (block.words r.file).max = 5 := by
  obtain ⟨w, c, block, run, hc, hcached⟩ := Small.exists_created
  have looked : Run (.cachedLookup 0 Handle.first (c.cached? Handle.first) :: Small.created) w :=
    run.step (.cachedLookup hc)
  rw [hcached Handle.first rfl] at looked
  have hgiven : Given (.cachedLookup 0 Handle.first (some ⟨Handle.first, .semaphore, block⟩) ::
      Small.created) 0 ⟨Handle.first, .semaphore, block⟩ :=
    ⟨_, List.mem_cons_self .., rfl, rfl⟩
  have stored := looked.step (@Step.store _ w _ _ .first 7 hgiven)
  obtain ⟨r', hs, hall⟩ := stored.stands
  obtain ⟨e, he, hh, -⟩ := hall (.create 0 Small.request (.ok ⟨.success, Handle.first, ⟨0⟩⟩))
    (by simp [Small.created])
  obtain ⟨k, request, hmade, hviews⟩ := stored.view_reads_last_store hs.authority he
  obtain ⟨act, hact, hgives⟩ := hgiven
  obtain ⟨-, hword, -, hmax, -⟩ := hviews 0 ⟨Handle.first, .semaphore, block⟩
    ⟨act, List.mem_cons_of_mem _ hact, hgives⟩ (congrArg index? hh)
  have hreq : request = Small.request := by
    simp only [Small.created, List.mem_cons, reduceCtorEq, false_or, Act.create.injEq,
      List.not_mem_nil, or_false] at hmade
    exact hmade.2.1
  have he' : e.handle = Handle.first := hh.symm
  refine ⟨block, _, r', stored, hs.authority, (hword .first).trans ?_, ?_⟩
  · rw [he', lastStore?, if_pos ⟨rfl, rfl⟩, Option.getD_some]
  · rw [hreq] at hmax
    refine hmax ?_
    rw [he', lastStore?, if_neg fun h => absurd h.2 nofun]
    rfl

end World

end SharedSync
