import SharedSync.Proofs.Registry.Creation

/-!
# Registry — a creation that fails leaves nothing behind

A request that is for a new object comes to the backing file: its length is read, it is grown if it
has to be, and the block is written.  Each of the three can fail, the last one with a part of the
block in the file.

* `Reachable`: the registries that requests, failures and the stores of clients lead to.
* `create_of_reaches`, `create_of_not_reaches`: a request comes to the file, or changes nothing.
* `Waits.exists_file`: until an object is made, only the file changes.
* `failure_unseen`: so nobody can tell that a creation failed, and the next object is the one that
  it would have made.
-/

namespace SharedSync

open Limits (stateBlockBytes)

namespace FileFault

/-- What the system says of the operation that fails. -/
def error : FileFault → SystemError
  | readLength error | grow error | write _ error => error

/-- The operation that fails is one of those that write the block of a slot. -/
def Meets (r : Registry) (slot : Slot) : FileFault → Prop
  | readLength _ | write _ _ => True
  | grow _ => r.file.size < r.lengthFor slot

end FileFault

namespace Registry

open FileContents (KeepsBelow)

/-- The states of a registry; clients store to the file through mappings of their own. -/
inductive Reachable : Registry → Prop where
  | start (path : Path) (pageSize : PageSize) (firstIndex : UInt32) :
      Reachable (start path pageSize firstIndex)
  | create {r : Registry} (h : Reachable r) (request : CreateRequest) (fault : Option FileFault) :
      Reachable (r.create request fault).state
  | store {r : Registry} (h : Reachable r) (offset : Nat) (data : Bytes) :
      Reachable { r with file := r.file.store offset data }

/-- From the first registry the second is reached without an object being made. -/
inductive Waits (r : Registry) : Registry → Prop where
  | refl : Waits r r
  | create {r' : Registry} (h : Waits r r') (request : CreateRequest) (fault : Option FileFault)
      (unmade : ∀ reply, (r'.create request fault).result = .ok reply → reply.status ≠ .success) :
      Waits r (r'.create request fault).state
  | store {r' : Registry} (h : Waits r r') (offset : Nat) (data : Bytes) :
      Waits r { r' with file := r'.file.store offset data }

/-- The request is for a new object, which gets this slot and this handle. -/
structure Reaches (r : Registry) (request : CreateRequest) (slot : Slot) (handle : Handle) :
    Prop where
  valid : IsValid request
  new : r.find? (nameOf request) = none
  issued : r.issue? = some (slot, handle)

/-- The fault strikes while the request is answered. -/
def Strikes (r : Registry) (request : CreateRequest) (fault : FileFault) : Prop :=
  ∃ slot handle, Reaches r request slot handle ∧ fault.Meets r slot

variable {r r' : Registry} {request : CreateRequest} {slot : Slot} {handle : Handle}
  {fault : FileFault}

/-- Every registry that requests and stores lead to is in order. -/
theorem Reachable.wellFormed (h : Reachable r) : r.WellFormed := by
  induction h with
  | start path pageSize firstIndex => exact wellFormed_start path pageSize firstIndex
  | create _ request fault ih => exact (creation_create _ request fault).wellFormed ih
  | store _ offset data ih => exact ih.with_file (Nat.le_of_eq (FileContents.size_store _ _ _).symm)

/-! ### The way to the file -/

/-- A request that comes to the file is made or fails with it. -/
theorem create_of_reaches (h : Reaches r request slot handle) (fault : Option FileFault) :
    r.create request fault =
      match r.writeBlock slot request fault with
      | (.error error, file) => ⟨.error (.system error), { r with file }, []⟩
      | (.ok (), file) =>
          ⟨.ok (Entry.reply ⟨handle, slot, .semaphore⟩ .success),
            insert { r with file } ⟨handle, slot, .semaphore⟩ (nameOf request),
            [.createdObject handle slot .semaphore]⟩ := by
  rcases hw : r.writeBlock slot request fault with ⟨error | done, file⟩ <;>
    simp only [create, register, h.valid.1, h.valid.2, h.new, h.issued, hw, Bool.not_true,
      Bool.false_eq_true, if_false]

/-- A request that does not come to the file changes nothing, whatever would fail. -/
theorem create_of_not_reaches (h : ∀ slot handle, ¬ Reaches r request slot handle) :
    ∃ reply events, reply.status ≠ .success ∧
      ∀ fault, r.create request fault = ⟨.ok reply, r, events⟩ := by
  unfold create
  cases hk : ObjectKind.ofTag? request.type with
  | none => exact ⟨.bare .invalidParameter, [], nofun, fun _ => rfl⟩
  | some kind =>
      by_cases hb : boundsOk request = true
      · obtain rfl := ObjectKind.eq_semaphore kind
        simp only [hb, Bool.not_true, Bool.false_eq_true, if_false]
        cases hf : r.find? (nameOf request) with
        | some e =>
            simp only [ObjectKind.eq_semaphore e.kind, ne_eq, not_true_eq_false, if_false]
            exact ⟨e.reply .objectNameExists, _, nofun, fun _ => rfl⟩
        | none =>
            cases hi : r.issue? with
            | none =>
                simp only [register, hi]
                exact ⟨.bare .noMemory, [], nofun, fun _ => rfl⟩
            | some issued => exact absurd ⟨⟨hk, hb⟩, hf, hi⟩ (h issued.1 issued.2)
      · simp only [Bool.not_eq_true] at hb
        simp only [hb, Bool.not_false, if_true]
        exact ⟨.bare .invalidParameter, [], nofun, fun _ => rfl⟩

/-! ### At the file -/

/-- A fault that is met is reported. -/
theorem writeBlock_of_meets (h : fault.Meets r slot) :
    (r.writeBlock slot request (some fault)).1 = .error fault.error := by
  cases fault with
  | readLength error => rfl
  | grow error =>
      have hs : r.file.size < r.lengthFor slot := h
      rw [writeBlock, if_pos hs]
      rfl
  | write count error => rfl

/-- A fault that is not met changes nothing. -/
theorem writeBlock_of_not_meets (h : ¬ fault.Meets r slot) :
    r.writeBlock slot request (some fault) = r.writeBlock slot request none := by
  cases fault with
  | readLength error => exact absurd trivial h
  | grow error =>
      have hs : ¬ r.file.size < r.lengthFor slot := h
      simp only [writeBlock, writeBlock.grown, if_neg hs]
  | write count error => exact absurd trivial h

/-- A failure on the file is answered as such, and the file is all that it changes. -/
theorem create_of_meets (h : Reaches r request slot handle) (hm : fault.Meets r slot) :
    r.create request (some fault) = ⟨.error (.system fault.error),
      { r with file := (r.writeBlock slot request (some fault)).2 }, []⟩ := by
  have hfails : (r.writeBlock slot request (some fault)).1 = .error fault.error :=
    writeBlock_of_meets hm
  rw [create_of_reaches h]
  rcases hw : r.writeBlock slot request (some fault) with ⟨outcome, file⟩
  rw [hw] at hfails
  obtain rfl : outcome = .error fault.error := hfails
  rfl

/-- What does not strike does not fail. -/
theorem ok_of_not_strikes (h : ¬ r.Strikes request fault) :
    ∃ reply, (r.create request (some fault)).result = .ok reply := by
  by_cases hr : ∃ slot handle, Reaches r request slot handle
  · obtain ⟨slot, handle, hr⟩ := hr
    rw [create_of_reaches hr, writeBlock_of_not_meets fun hm => h ⟨slot, handle, hr, hm⟩]
    exact ⟨_, rfl⟩
  · obtain ⟨reply, events, -, hc⟩ :=
      create_of_not_reaches fun slot handle hreaches => hr ⟨slot, handle, hreaches⟩
    exact ⟨reply, by rw [hc]⟩

/-- While nothing fails, the object is made. -/
theorem create_of_reaches_none (h : Reaches r request slot handle) :
    (r.create request).result = .ok (Entry.reply ⟨handle, slot, .semaphore⟩ .success) := by
  rw [create_of_reaches h]
  rfl

/-- A new object is the next one, and its block holds the bounds that were asked for. -/
theorem reaches_of_success {fault : Option FileFault} {reply : Reply}
    (h : (r.create request fault).result = .ok reply) (hs : reply.status = .success) :
    ∃ slot handle, Reaches r request slot handle ∧
      reply = Entry.reply ⟨handle, slot, .semaphore⟩ .success ∧
      Holds (r.create request fault).state.file slot request := by
  by_cases hr : ∃ slot handle, Reaches r request slot handle
  · obtain ⟨slot, handle, hr⟩ := hr
    refine ⟨slot, handle, hr, ?_⟩
    rw [create_of_reaches hr] at h ⊢
    rcases hw : r.writeBlock slot request fault with ⟨outcome, file⟩
    rw [hw] at h
    cases outcome with
    | error error => cases h
    | ok done =>
        cases h
        exact ⟨rfl, holds_writeBlock hw⟩
  · obtain ⟨reply', events, hne, hc⟩ :=
      create_of_not_reaches fun slot handle hreaches => hr ⟨slot, handle, hreaches⟩
    rw [hc] at h
    cases h
    exact absurd hs hne

/-! ### Until an object is made -/

/-- Waiting leaves the registry as it is, but for its file. -/
theorem Waits.exists_file (h : Waits r r') : ∃ file, r' = { r with file } := by
  induction h with
  | refl => exact ⟨r.file, rfl⟩
  | @create r' _ request fault unmade ih =>
      obtain ⟨file, rfl⟩ := ih
      generalize hr' : { r with file } = r' at unmade
      have hc := creation_create r' request fault
      generalize (r'.create request fault).result = result at hc unmade
      generalize (r'.create request fault).state = state at hc ⊢
      subst hr'
      cases hc with
      | invalid | opened | exhausted => exact ⟨file, rfl⟩
      | @failed _ file' => exact ⟨file', rfl⟩
      | made => exact absurd rfl (unmade _ rfl)
  | store _ offset data ih =>
      obtain ⟨file, rfl⟩ := ih
      exact ⟨file.store offset data, rfl⟩

/-! ### Nobody can tell -/

/-- The fault kept `r` from making `next`, and what is left shows nothing of that. -/
structure Unseen (r : Registry) (request : CreateRequest) (fault : FileFault) (next : Entry) :
    Prop where
  failed : (r.create request (some fault)).result = .error (.system fault.error)
  /-- Without the fault the object is made. -/
  meant : (r.create request).result = .ok (next.reply .success)
  objects : (r.create request (some fault)).state.objects = r.objects
  byHandle : (r.create request (some fault)).state.byHandle = r.byHandle
  byName : (r.create request (some fault)).state.byName = r.byName
  /-- The name is free, and every look-up is answered as before. -/
  free : (r.create request (some fault)).state.find? (nameOf request) = none
  find?_eq : ∀ name, (r.create request (some fault)).state.find? name = r.find? name
  query_eq : ∀ handle, (r.create request (some fault)).state.query handle = r.query handle
  size_le : r.file.size ≤ (r.create request (some fault)).state.file.size
  /-- The blocks of objects are kept, byte by byte. -/
  blocks : ∀ e ∈ r.objects,
    (r.create request (some fault)).state.file.bytesAt e.slot.byteOffset stateBlockBytes =
      r.file.bytesAt e.slot.byteOffset stateBlockBytes
  /-- The next object that is made is `next`, with the bounds of its own request. -/
  made : ∀ r', Waits (r.create request (some fault)).state r' → ∀ other fault' reply,
    (r'.create other fault').result = .ok reply → reply.status = .success →
      reply = next.reply .success ∧ Holds (r'.create other fault').state.file next.slot other
  /-- The same request can be it. -/
  again : ∀ r', Waits (r.create request (some fault)).state r' →
    (r'.create request).result = .ok (next.reply .success)

/-- A failure on the file leaves no object behind. -/
theorem unseen_of_meets (hr : r.WellFormed) (h : Reaches r request slot handle)
    (hm : fault.Meets r slot) : Unseen r request fault ⟨handle, slot, .semaphore⟩ := by
  have hcreate := create_of_meets h hm
  have hoff : slot.byteOffset = r.objects.size * stateBlockBytes := by
    rw [Slot.byteOffset, (issue?_eq_some h.issued).1]
  have hkept := hoff ▸ keepsBelow_writeBlock r slot request (some fault)
  generalize (r.writeBlock slot request (some fault)).2 = file at hcreate hkept
  -- what waits after the failure has another file, so it makes what `r` would have made
  have hwaits : ∀ r', Waits (r.create request (some fault)).state r' →
      ∃ file, r' = { r with file } := by
    intro r' hw
    obtain ⟨file', rfl⟩ := hw.exists_file
    exact ⟨file', by rw [hcreate]⟩
  constructor
  case failed => rw [hcreate]
  case meant => exact create_of_reaches_none h
  case objects => rw [hcreate]
  case byHandle => rw [hcreate]
  case byName => rw [hcreate]
  case free => rw [hcreate]; exact h.new
  case find?_eq => rw [hcreate]; exact fun _ => rfl
  case query_eq => rw [hcreate]; exact fun _ => rfl
  case size_le => rw [hcreate]; exact hkept.size_le
  case blocks =>
    intro e he
    rw [hcreate]
    refine FileContents.bytesAt_congr fun i hi => ?_
    have hlt := (hr.numbered_mem he).1
    have hcovered := hr.block_le_size he
    refine hkept.byte_eq _ ?_ (by omega)
    simp only [Slot.byteOffset, stateBlockBytes] at hi ⊢
    omega
  case made =>
    intro r' hw other fault' reply hok hs
    obtain ⟨slot', handle', hreaches, rfl, hholds⟩ := reaches_of_success hok hs
    obtain ⟨file', rfl⟩ := hwaits r' hw
    have hissued : r.issue? = some (slot', handle') := hreaches.issued
    rw [h.issued] at hissued
    cases hissued
    exact ⟨rfl, hholds⟩
  case again =>
    intro r' hw
    obtain ⟨file', rfl⟩ := hwaits r' hw
    exact create_of_reaches_none ⟨h.valid, h.new, h.issued⟩

/-- **A creation fails only on the file, and then nobody can tell that it was asked for.** -/
theorem failure_unseen (h : Reachable r) (request : CreateRequest) (fault : FileFault) :
    (∀ error, (r.create request (some fault)).result = .error error → r.Strikes request fault) ∧
      (r.Strikes request fault → ∃ next, Unseen r request fault next) := by
  constructor
  · intro error herror
    refine Classical.not_not.mp fun hn => ?_
    obtain ⟨reply, hok⟩ := ok_of_not_strikes hn
    rw [hok] at herror
    cases herror
  · rintro ⟨slot, handle, hreaches, hmeets⟩
    exact ⟨_, unseen_of_meets h.wellFormed hreaches hmeets⟩

namespace Small

/-- One object, into whose block a client has stored. -/
def stored : Registry :=
  let r := ((start ⟨[0x66]⟩ .usual 0).create { high := 7 }).state
  { r with file := r.file.storeWord 0 5 }

theorem reachable_stored : Reachable stored :=
  .store (.create (.start ⟨[0x66]⟩ .usual 0) { high := 7 } none) 0 (Words.le32 5)

/-- A request without a name for the second object. -/
def second : CreateRequest := { low := 3, high := 258 }

/-- The write ends within `high`. -/
def torn : FileFault := .write 5 .cannotAllocate

end Small

/-- Five bytes of the second block come to the file, and the block still belongs to the object that
is made next. -/
theorem failure_unseen_small :
    Small.stored.Reachable ∧
      (Small.stored.create Small.second (some Small.torn)).result =
        .error (.system .cannotAllocate) ∧
      (Small.stored.create Small.second (some Small.torn)).state.file.bytesAt 0 16 =
        [5, 0, 0, 0, 7, 0, 0, 0, 3, 0, 0, 0, 2, 0, 0, 0] ∧
      ∃ next, Unseen Small.stored Small.second Small.torn next := by
  have hfailed : (Small.stored.create Small.second (some Small.torn)).result =
      .error (.system .cannotAllocate) := rfl
  have hbytes : (Small.stored.create Small.second (some Small.torn)).state.file.bytesAt 0 16 =
      [5, 0, 0, 0, 7, 0, 0, 0, 3, 0, 0, 0, 2, 0, 0, 0] := by decide +kernel
  obtain ⟨hstrikes, hunseen⟩ := failure_unseen Small.reachable_stored Small.second Small.torn
  exact ⟨Small.reachable_stored, hfailed, hbytes, hunseen (hstrikes _ hfailed)⟩

end Registry

end SharedSync
