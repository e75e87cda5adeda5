import Mathlib
import SharedSync.Proofs.Authority.Session
import SharedSync.Proofs.Registry.Creation
import SharedSync.Proofs.World.Run

/-!
# Authority — what a registry answers is fixed by its past

A past is a series of requests with their replies, the first one first.  Its `creations` are the
requests that were answered with a new object.  `Reflects r past` says that the registry `r` holds
just what they made: object `i` belongs to creation `i`, and a name leads to the creation that took
it.

* `Reflects.create`, `Reflects.snoc_query`: answering a request keeps that, with the request at the
  end of the past.
* `AnswersCreate`, `AnswersQuery`: an answer told from the past alone.
* `MemoryAuthority.replies_reflected`: so it is after any series of requests.
-/

namespace SharedSync

/-- The request asks for a semaphore with bounds that one may have. -/
def CreateRequest.AsksSemaphore (request : CreateRequest) : Prop :=
  request.type = ObjectKind.semaphore.tag ∧ 0 ≤ request.low ∧ request.low ≤ request.high ∧
    0 < request.high

namespace Registry

/-- The check of the registry is the one that the specification asks for. -/
theorem isValid_iff {request : CreateRequest} : IsValid request ↔ request.AsksSemaphore := by
  have htype : ObjectKind.ofTag? request.type = some .semaphore ↔
      request.type = ObjectKind.semaphore.tag := by
    unfold ObjectKind.ofTag?
    split
    · next h => exact iff_of_true rfl h
    · next h => exact iff_of_false (by simp only [reduceCtorEq, not_false_eq_true]) h
  simp only [IsValid, htype, boundsOk, Bool.and_eq_true, decide_eq_true_eq,
    CreateRequest.AsksSemaphore]
  constructor
  · rintro ⟨htype, ⟨hhigh, hlow⟩, hle⟩
    exact ⟨htype, hlow, hle, hhigh⟩
  · rintro ⟨htype, hlow, hle, hhigh⟩
    exact ⟨htype, ⟨hhigh, hlow⟩, hle⟩

/-- No object is registered under the empty name. -/
theorem nameOf_ne_empty {request : CreateRequest} {name : String}
    (h : nameOf request = some name) : name ≠ "" := by
  rintro rfl
  obtain ⟨-, hne⟩ := Option.filter_eq_some_iff.mp h
  exact absurd hne (by decide)

/-! ### Creations -/

/-- The request of an exchange that made a new object, with the reply. -/
def creation? : Request × Reply → Option (CreateRequest × Reply)
  | (.create request, reply) => if reply.status = .success then some (request, reply) else none
  | (.query _, _) => none

/-- The exchanges of a past that made a new object, in order. -/
def creations (past : List (Request × Reply)) : List (CreateRequest × Reply) :=
  past.filterMap creation?

variable {past : List (Request × Reply)} {request : CreateRequest} {reply : Reply} {r r' : Registry}

/-- The creations of a past are its successful create requests. -/
theorem mem_creations {c : CreateRequest × Reply} :
    c ∈ creations past ↔ (.create c.1, c.2) ∈ past ∧ c.2.status = .success := by
  rw [creations, List.mem_filterMap]
  constructor
  · rintro ⟨⟨request | handle, reply⟩, hmem, hc⟩
    · by_cases hs : reply.status = .success
      · rw [creation?, if_pos hs] at hc
        cases hc
        exact ⟨hmem, hs⟩
      · rw [creation?, if_neg hs] at hc
        cases hc
    · cases hc
  · rintro ⟨hmem, hs⟩
    exact ⟨_, hmem, if_pos hs⟩

theorem creations_append (past more : List (Request × Reply)) :
    creations (past ++ more) = creations past ++ creations more := List.filterMap_append

theorem creations_snoc (past : List (Request × Reply)) (exchange : Request × Reply) :
    creations (past ++ [exchange]) = creations past ++ (creation? exchange).toList := by
  rw [creations_append]
  cases hc : creation? exchange <;> simp [creations, hc]

theorem creations_snoc_success (past : List (Request × Reply)) (request : CreateRequest)
    (h : reply.status = .success) :
    creations (past ++ [(.create request, reply)]) = creations past ++ [(request, reply)] := by
  rw [creations_snoc, creation?, if_pos h, Option.toList_some]

theorem creations_snoc_other (past : List (Request × Reply)) (request : CreateRequest)
    (h : reply.status ≠ .success) :
    creations (past ++ [(.create request, reply)]) = creations past := by
  rw [creations_snoc, creation?, if_neg h, Option.toList_none, List.append_nil]

theorem creations_snoc_query (past : List (Request × Reply)) (handle : Handle) (reply : Reply) :
    creations (past ++ [(.query handle, reply)]) = creations past := by
  rw [creations_snoc, creation?, Option.toList_none, List.append_nil]

/-! ### A registry and its past -/

/-- The registry holds what was made in the past, and nothing else. -/
structure Reflects (r : Registry) (past : List (Request × Reply)) : Prop where
  wellFormed : r.WellFormed
  /-- Object `i` is the one that creation `i` was answered with. -/
  made : ∀ i : Nat, (creations past)[i]?.map Prod.snd = r.objects[i]?.map (Entry.reply · .success)
  /-- A name leads to the creation that took it. -/
  named : ∀ (name : String) (i : Nat), r.byName[name]? = some i ↔
    ∃ c, (creations past)[i]? = some c ∧ nameOf c.1 = some name
  /-- A reply that says that the name exists is about the creation that took it. -/
  opened : ∀ (request : CreateRequest) (reply : Reply), (.create request, reply) ∈ past →
    reply.status = .objectNameExists → ∃ c ∈ creations past, ∃ name,
      nameOf request = some name ∧ nameOf c.1 = some name ∧
        reply = { c.2 with status := .objectNameExists }
  /-- The handles in replies are handles of objects. -/
  issued : ∀ exchange ∈ past, ∀ handle, exchange.2.handle = some handle →
    ∃ e ∈ r.objects, e.handle = handle

/-- A new registry reflects an empty past. -/
theorem reflects_start (path : Path) (pageSize : PageSize) (firstIndex : UInt32) :
    Reflects (start path pageSize firstIndex) [] where
  wellFormed := wellFormed_start path pageSize firstIndex
  made i := by simp [creations, start]
  named name i := by simp [creations, start]
  opened request reply h := absurd h List.not_mem_nil
  issued exchange h := absurd h List.not_mem_nil

/-- There are as many objects as there were creations. -/
theorem Reflects.length_eq (h : Reflects r past) : (creations past).length = r.objects.size := by
  refine Nat.le_antisymm ?_ ?_
  · have hs := h.made r.objects.size
    rw [Array.getElem?_size, Option.map_none, Option.map_eq_none_iff] at hs
    exact List.getElem?_eq_none_iff.mp hs
  · have hs := h.made (creations past).length
    rw [List.getElem?_length, Option.map_none] at hs
    exact Array.getElem?_eq_none_iff.mp (Option.map_eq_none_iff.mp hs.symm)

/-- Each creation made the object at its own position. -/
theorem Reflects.exists_entry (h : Reflects r past) {i : Nat} {c : CreateRequest × Reply}
    (hc : (creations past)[i]? = some c) :
    ∃ e : Entry, r.objects[i]? = some e ∧ c.2 = e.reply .success := by
  have hs := h.made i
  rw [hc, Option.map_some] at hs
  obtain ⟨e, he, hreply⟩ := Option.map_eq_some_iff.mp hs.symm
  exact ⟨e, he, hreply.symm⟩

/-- The slot of an object is the number of its creation. -/
theorem Reflects.getElem?_slot (h : Reflects r past) {c : CreateRequest × Reply}
    (hc : c ∈ creations past) : (creations past)[c.2.slot.number.toNat]? = some c := by
  obtain ⟨i, hi⟩ := List.mem_iff_getElem?.mp hc
  obtain ⟨e, he, hreply⟩ := h.exists_entry hi
  have hslot : c.2.slot.number.toNat = i := by
    rw [hreply]
    exact (h.wellFormed.numbered i e he).1
  rw [hslot, hi]

/-- Each object comes from the creation at its own position. -/
theorem Reflects.exists_creation (h : Reflects r past) {i : Nat} {e : Entry}
    (he : r.objects[i]? = some e) :
    ∃ c, (creations past)[i]? = some c ∧ c.2 = e.reply .success := by
  have hs := h.made i
  rw [he, Option.map_some] at hs
  exact Option.map_eq_some_iff.mp hs

/-- No two creations took the same name. -/
theorem Reflects.creation_unique (h : Reflects r past) {i j : Nat} {c d : CreateRequest × Reply}
    {name : String} (hc : (creations past)[i]? = some c) (hd : (creations past)[j]? = some d)
    (hcn : nameOf c.1 = some name) (hdn : nameOf d.1 = some name) : i = j ∧ c = d := by
  have hi := (h.named name i).mpr ⟨c, hc, hcn⟩
  have hj := (h.named name j).mpr ⟨d, hd, hdn⟩
  obtain rfl : i = j := Option.some.inj (hi.symm.trans hj)
  exact ⟨rfl, Option.some.inj (hc.symm.trans hd)⟩

/-- A name is found if a creation took it, and then it leads to the object that was made. -/
theorem Reflects.find?_iff (h : Reflects r past) {name : String} {e : Entry} :
    r.find? (some name) = some e ↔ ∃ (i : Nat) (c : CreateRequest × Reply),
      (creations past)[i]? = some c ∧ nameOf c.1 = some name ∧ r.objects[i]? = some e := by
  have hfind : r.find? (some name) = (r.byName[name]?).bind fun i => r.objects[i]? := rfl
  rw [hfind, Option.bind_eq_some_iff]
  constructor
  · rintro ⟨i, hi, he⟩
    obtain ⟨c, hc, hn⟩ := (h.named name i).mp hi
    exact ⟨i, c, hc, hn, he⟩
  · rintro ⟨i, c, hc, hn, he⟩
    exact ⟨i, (h.named name i).mpr ⟨c, hc, hn⟩, he⟩

/-- A creation of the past took the name of the request. -/
def Taken (past : List (Request × Reply)) (request : CreateRequest) : Prop :=
  ∃ c ∈ creations past, ∃ name, nameOf request = some name ∧ nameOf c.1 = some name

/-- A name is taken if the registry finds an object by it. -/
theorem Reflects.taken_iff (h : Reflects r past) (request : CreateRequest) :
    Taken past request ↔ r.find? (nameOf request) ≠ none := by
  rw [Option.ne_none_iff_exists']
  constructor
  · rintro ⟨c, hmem, name, hname, hc⟩
    obtain ⟨i, hi⟩ := List.mem_iff_getElem?.mp hmem
    obtain ⟨e, he, -⟩ := h.exists_entry hi
    exact ⟨e, by rw [hname]; exact h.find?_iff.mpr ⟨i, c, hi, hc, he⟩⟩
  · rintro ⟨e, he⟩
    cases hname : nameOf request with
    | none => rw [hname] at he; cases he
    | some name =>
        rw [hname] at he
        obtain ⟨i, c, hi, hc, -⟩ := h.find?_iff.mp he
        exact ⟨c, List.mem_of_getElem? hi, name, hname, hc⟩

/-! ### One more exchange -/

theorem getElem?_byName_insert (r : Registry) (e : Entry) (taken : Option String) (name : String) :
    (r.insert e taken).byName[name]? =
      if taken = some name then some r.objects.size else r.byName[name]? := by
  cases taken with
  | none => rw [if_neg nofun]; rfl
  | some other =>
      show (r.byName.insert other r.objects.size)[name]? = _
      rw [Std.HashMap.getElem?_insert]
      by_cases h : other = name
      · rw [if_pos (beq_iff_eq.mpr h), if_pos (congrArg some h)]
      · rw [if_neg (fun hb => h (beq_iff_eq.mp hb)), if_neg (fun hs => h (Option.some.inj hs))]

/-- An exchange that made no object keeps what the registry reflects. -/
theorem Reflects.snoc_unmade (h : Reflects r past) {exchange : Request × Reply}
    (same : creations (past ++ [exchange]) = creations past)
    (opened : ∀ request, exchange.1 = .create request → exchange.2.status = .objectNameExists →
      ∃ c ∈ creations past, ∃ name, nameOf request = some name ∧ nameOf c.1 = some name ∧
        exchange.2 = { c.2 with status := .objectNameExists })
    (issued : ∀ handle, exchange.2.handle = some handle → ∃ e ∈ r.objects, e.handle = handle) :
    Reflects r (past ++ [exchange]) := by
  refine ⟨h.wellFormed, same.symm ▸ h.made, same.symm ▸ h.named, ?_, ?_⟩
  · intro request reply hmem hs
    rw [same]
    rcases List.mem_append.mp hmem with hmem | hmem
    · exact h.opened request reply hmem hs
    · obtain rfl := List.mem_singleton.mp hmem
      exact opened request rfl hs
  · intro other hmem
    rcases List.mem_append.mp hmem with hmem | hmem
    · exact h.issued other hmem
    · obtain rfl := List.mem_singleton.mp hmem
      exact issued

/-- The creation of the next object has the object's number. -/
theorem Reflects.getElem?_creations_made (h : Reflects r past) (request : CreateRequest) (e : Entry)
    (i : Nat) : (creations (past ++ [(.create request, e.reply .success)]))[i]? =
      if i = r.objects.size then some (request, e.reply .success) else (creations past)[i]? := by
  have hmore : creations (past ++ [(.create request, e.reply .success)]) =
      creations past ++ [(request, e.reply .success)] := creations_snoc_success past request rfl
  rw [hmore, ← h.length_eq, List.getElem?_append]
  rcases Nat.lt_trichotomy i (creations past).length with hlt | rfl | hgt
  · rw [if_pos hlt, if_neg (Nat.ne_of_lt hlt)]
  · rw [if_neg (Nat.lt_irrefl _), if_pos rfl, Nat.sub_self]
    rfl
  · rw [if_neg (Nat.lt_asymm hgt), if_neg (Nat.ne_of_gt hgt), List.getElem?_eq_none (by
      rw [List.length_singleton]
      omega), List.getElem?_eq_none (Nat.le_of_lt hgt)]

/-- A new name leads nowhere yet. -/
theorem Reflects.byName_ne_some (h : Reflects r past) {name : String}
    (new : r.find? (some name) = none) (i : Nat) : r.byName[name]? ≠ some i := by
  intro hi
  obtain ⟨e, he⟩ : ∃ e, r.objects[i]? = some e :=
    ⟨_, Array.getElem?_eq_some_iff.mpr ⟨h.wellFormed.byName name i hi, rfl⟩⟩
  have hfind : r.find? (some name) = some e := by
    show (r.byName[name]?).bind (fun i => r.objects[i]?) = _
    rw [hi, Option.bind_some, he]
  rw [hfind] at new
  cases new

/-- With the next object, its name leads to its creation, and all other names as before. -/
theorem Reflects.named_made (h : Reflects r past) (new : r.find? (nameOf request) = none)
    (e : Entry) (name : String) (i : Nat) :
    (r.insert e (nameOf request)).byName[name]? = some i ↔
      ∃ c, (creations (past ++ [(.create request, e.reply .success)]))[i]? = some c ∧
        nameOf c.1 = some name := by
  rw [h.getElem?_creations_made, getElem?_byName_insert]
  by_cases hname : nameOf request = some name
  · rw [if_pos hname]
    rw [hname] at new
    constructor
    · rintro ⟨⟩
      exact ⟨_, if_pos rfl, hname⟩
    · rintro ⟨c, hc, hcn⟩
      split at hc
      · next hi => rw [hi]
      · exact absurd ((h.named name i).mpr ⟨c, hc, hcn⟩) (h.byName_ne_some new i)
  · rw [if_neg hname, h.named]
    refine exists_congr fun c => ?_
    constructor
    · rintro ⟨hc, hcn⟩
      have hlt : i < (creations past).length := (List.getElem?_eq_some_iff.mp hc).1
      rw [if_neg (Nat.ne_of_lt (h.length_eq ▸ hlt))]
      exact ⟨hc, hcn⟩
    · rintro ⟨hc, hcn⟩
      split at hc
      · cases hc
        exact absurd hcn hname
      · exact ⟨hc, hcn⟩

/-- The next object is reflected by a past with its creation at the end. -/
theorem Reflects.snoc_made (h : Reflects r past) {e : Entry} (next : r.IsNext e)
    (new : r.find? (nameOf request) = none) :
    Reflects (r.insert e (nameOf request)) (past ++ [(.create request, e.reply .success)]) := by
  refine ⟨h.wellFormed.insert next _, ?made, h.named_made new e, ?opened, ?issued⟩
  case made =>
    intro i
    rw [h.getElem?_creations_made, getElem?_insert]
    split
    · rfl
    · exact h.made i
  case opened =>
    intro other reply hmem hs
    rw [creations_snoc_success past request rfl]
    rcases List.mem_append.mp hmem with hmem | hmem
    · obtain ⟨c, hc, hrest⟩ := h.opened other reply hmem hs
      exact ⟨c, List.mem_append_left _ hc, hrest⟩
    · obtain ⟨-, rfl⟩ := Prod.mk.inj (List.mem_singleton.mp hmem)
      cases hs
  case issued =>
    intro exchange hmem handle hh
    rcases List.mem_append.mp hmem with hmem | hmem
    · obtain ⟨e', he', hrest⟩ := h.issued exchange hmem handle hh
      exact ⟨e', mem_insert.mpr (.inl he'), hrest⟩
    · obtain rfl := List.mem_singleton.mp hmem
      exact ⟨e, mem_insert.mpr (.inr rfl), Option.some.inj hh⟩

/-! ### What is answered -/

/-- What a registry that counts from `first` answers to a creation after `past`. -/
structure AnswersCreate (first : UInt32) (past : List (Request × Reply)) (request : CreateRequest)
    (reply : Reply) : Prop where
  invalid : reply.status = .invalidParameter ↔ ¬ request.AsksSemaphore
  existing : reply.status = .objectNameExists ↔ request.AsksSemaphore ∧ Taken past request
  exhausted : reply.status = .noMemory ↔ request.AsksSemaphore ∧ ¬ Taken past request ∧
    2 ^ 30 - 1 ≤ first.toNat + (creations past).length
  made : reply.status = .success ↔ request.AsksSemaphore ∧ ¬ Taken past request ∧
    first.toNat + (creations past).length < 2 ^ 30 - 1
  bare : reply.status = .invalidParameter ∨ reply.status = .noMemory → reply = .bare reply.status
  original : reply.status = .objectNameExists → ∀ c ∈ creations past, ∀ name,
    nameOf request = some name → nameOf c.1 = some name →
      reply = { c.2 with status := .objectNameExists }
  next : reply.status = .success → reply.slot.number.toNat = (creations past).length ∧
    reply.type = ObjectKind.semaphore.tag ∧ ∃ handle, reply.handle = some handle ∧
      handle.raw.toNat = 4 * (first.toNat + (creations past).length + 1) ∧
      ∀ exchange ∈ past, exchange.2.handle ≠ some handle

/-- What a registry answers to a query after `past`. -/
structure AnswersQuery (past : List (Request × Reply)) (handle : Handle) (reply : Reply) :
    Prop where
  found : reply.status = .success ↔ ∃ c ∈ creations past, c.2.handle = some handle
  object : ∀ c ∈ creations past, c.2.handle = some handle → reply = c.2
  unknown : reply.status ≠ .success → reply = .bare .invalidHandle

/-- A registry that reflects the past reflects it after a create request too. -/
theorem Creation.reflects (h : Reflects r past) (hc : Creation r request (.ok reply) r') :
    Reflects r' (past ++ [(.create request, reply)]) := by
  cases hc with
  | invalid =>
      exact h.snoc_unmade (creations_snoc_other past request nofun) (fun _ _ => nofun) nofun
  | @opened e _ found =>
      refine h.snoc_unmade (creations_snoc_other past request nofun) ?_ ?_
      · rintro other ⟨⟩ -
        cases hname : nameOf request with
        | none => rw [hname] at found; cases found
        | some name =>
            rw [hname] at found
            obtain ⟨i, c, hi, hcn, he⟩ := h.find?_iff.mp found
            obtain ⟨e', he', hreply⟩ := h.exists_entry hi
            obtain rfl : e = e' := Option.some.inj (he.symm.trans he')
            exact ⟨c, List.mem_of_getElem? hi, name, rfl, hcn, by rw [hreply]; rfl⟩
      · rintro handle ⟨⟩
        exact ⟨e, find?_mem found, rfl⟩
  | exhausted =>
      exact h.snoc_unmade (creations_snoc_other past request nofun) (fun _ _ => nofun) nofun
  | @made e file _ new next kept _ =>
      have hfile : Reflects { r with file } past :=
        ⟨h.wellFormed.with_file kept.size_le, h.made, h.named, h.opened, h.issued⟩
      exact hfile.snoc_made next new

/-- Handles end where their raw values do. -/
theorem full_iff (h : Reflects r past) :
    r.issue? = none ↔ 2 ^ 30 - 1 ≤ r.firstIndex.toNat + (creations past).length := by
  rw [issue?_eq_none_iff, h.length_eq]
  exact Iff.rfl

/-- The answer to a create request is the one that the past calls for. -/
theorem Creation.answersCreate (h : Reflects r past) (hc : Creation r request (.ok reply) r') :
    AnswersCreate r.firstIndex past request reply := by
  have htaken := h.taken_iff request
  cases hc with
  | invalid hv =>
      rw [isValid_iff] at hv
      constructor <;> simp [Reply.bare, hv]
  | @opened e hv found =>
      rw [isValid_iff] at hv
      -- the name is taken, so the answer is that of the creation it stems from
      have ht : Taken past request := htaken.mpr (by rw [found]; exact nofun)
      refine ⟨?_, ?_, ?_, ?_, ?_, ?original, ?_⟩
      case original =>
        intro _ c hmem name hname hcn
        obtain ⟨i, hi⟩ := List.mem_iff_getElem?.mp hmem
        obtain ⟨e', he', hreply⟩ := h.exists_entry hi
        have hfind := h.find?_iff.mpr ⟨i, c, hi, hcn, he'⟩
        rw [hname, hfind] at found
        cases found
        rw [hreply]
        rfl
      all_goals simp [Entry.reply, hv, ht]
  | exhausted hv new full =>
      rw [isValid_iff] at hv
      have ht : ¬ Taken past request := fun ht => htaken.mp ht new
      have hfull : 1073741823 ≤ r.firstIndex.toNat + (creations past).length := (full_iff h).mp full
      constructor <;> simp [Reply.bare, hv, ht, hfull]
  | @made e file hv new next kept _ =>
      rw [isValid_iff] at hv
      have ht : ¬ Taken past request := fun ht => htaken.mp ht new
      have hhandle : e.handle.raw.toNat =
          4 * (r.firstIndex.toNat + (creations past).length + 1) := by
        rw [h.length_eq]
        exact next.handle
      have hroom : r.firstIndex.toNat + (creations past).length < 1073741823 := by
        have := e.handle.raw.toNat_lt
        omega
      refine ⟨?_, ?_, ?_, ?_, ?_, ?_, ?next⟩
      case next =>
        intro _
        refine ⟨h.length_eq ▸ next.slot, congrArg ObjectKind.tag (ObjectKind.eq_semaphore e.kind),
          e.handle, rfl, hhandle, ?_⟩
        intro exchange hmem hsame
        obtain ⟨e', he', hh⟩ := h.issued exchange hmem e.handle hsame
        exact next.raw_ne (h.wellFormed.with_file kept.size_le) he' (by rw [hh])
      all_goals simp [Entry.reply, hv, ht, hroom]

/-- The handle of a query was issued if a creation was answered with it. -/
theorem Reflects.answersQuery (h : Reflects r past) (handle : Handle) :
    AnswersQuery past handle (r.query handle) := by
  have hobject : ∀ c ∈ creations past, c.2.handle = some handle → r.query handle = c.2 := by
    intro c hmem hh
    obtain ⟨i, hi⟩ := List.mem_iff_getElem?.mp hmem
    obtain ⟨e, he, hreply⟩ := h.exists_entry hi
    rw [hreply] at hh ⊢
    obtain rfl : e.handle = handle := Option.some.inj hh
    exact h.wellFormed.query_eq (Array.mem_of_getElem? he)
  by_cases hissued : ∃ c ∈ creations past, c.2.handle = some handle
  · obtain ⟨c, hmem, hh⟩ := hissued
    have hs : (r.query handle).status = .success := by
      rw [hobject c hmem hh]
      exact (mem_creations.mp hmem).2
    exact ⟨⟨fun _ => ⟨c, hmem, hh⟩, fun _ => hs⟩, hobject, fun hn => absurd hs hn⟩
  · have hbare : r.query handle = .bare .invalidHandle := by
      refine h.wellFormed.query_eq_bare fun e hmem hh => hissued ?_
      obtain ⟨i, hi⟩ := Array.mem_iff_getElem?.mp hmem
      obtain ⟨c, hc, hreply⟩ := h.exists_creation hi
      exact ⟨c, List.mem_of_getElem? hc, by rw [hreply, ← hh]; rfl⟩
    rw [hbare]
    exact ⟨⟨nofun, fun hi => absurd hi hissued⟩, fun c hmem hh => absurd ⟨c, hmem, hh⟩ hissued,
      fun _ => rfl⟩

/-- A query leaves no trace in the registry. -/
theorem Reflects.snoc_query (h : Reflects r past) (handle : Handle) :
    Reflects r (past ++ [(.query handle, r.query handle)]) := by
  refine h.snoc_unmade (creations_snoc_query past handle _) (fun _ => nofun) ?_
  intro issued hh
  by_cases hknown : ∃ e ∈ r.objects, e.handle = handle
  · obtain ⟨e, hmem, rfl⟩ := hknown
    have hq := h.wellFormed.query_eq hmem
    simp only [hq] at hh
    exact ⟨e, hmem, Option.some.inj hh⟩
  · have hq := h.wellFormed.query_eq_bare fun e hmem hh => hknown ⟨e, hmem, hh⟩
    simp only [hq] at hh
    cases hh

/-- **An answer keeps the registry what its past made of it**, and is told from the past. -/
theorem Reflects.create (h : Reflects r past) (request : CreateRequest) : ∃ reply r' events,
    r.create request = ⟨.ok reply, r', events⟩ ∧ r'.firstIndex = r.firstIndex ∧
      Reflects r' (past ++ [(.create request, reply)]) ∧
      AnswersCreate r.firstIndex past request reply := by
  have hcreation := creation_create r request none
  obtain ⟨reply, hok, -⟩ := create_answers r request
  rcases hc : r.create request with ⟨result, r', events⟩
  rw [hc] at hok hcreation
  obtain rfl : result = .ok reply := hok
  refine ⟨reply, r', events, rfl, ?_, hcreation.reflects h, hcreation.answersCreate h⟩
  cases hcreation <;> rfl

end Registry

/-! ### Any series of requests -/

namespace MemoryAuthority

open Registry (Reflects AnswersCreate AnswersQuery creations nameOf)

variable {r : Registry} {past : List (Request × Reply)}

/-- **Every request is answered, and the registry keeps reflecting the past.** -/
theorem answer_reflected (h : Reflects r past) (request : Request) : ∃ reply r' events,
    authority.answer request ⟨some r⟩ = ⟨.ok reply, ⟨some r'⟩, events⟩ ∧
      r'.firstIndex = r.firstIndex ∧ Reflects r' (past ++ [(request, reply)]) := by
  cases request with
  | create request =>
      obtain ⟨reply, r', events, hc, hfirst, hr, -⟩ := h.create request
      refine ⟨reply, r', events, ?_, hfirst, hr⟩
      simp only [Authority.answer, authority, hc, Outcome.inside]
  | query handle => exact ⟨r.query handle, r, [], rfl, rfl, h.snoc_query handle⟩

/-- What every request keeps, any series of them keeps. -/
theorem replies_kept {Keeps : Registry → List (Request × Reply) → Prop}
    (answer : ∀ {r past}, Keeps r past → ∀ request, ∃ reply r' events,
      authority.answer request ⟨some r⟩ = ⟨.ok reply, ⟨some r'⟩, events⟩ ∧
        Keeps r' (past ++ [(request, reply)]))
    (h : Keeps r past) (requests : List Request) :
    ∃ (replies : List Reply) (r' : Registry),
      authority.replies requests ⟨some r⟩ = (replies.map .ok, ⟨some r'⟩) ∧
        replies.length = requests.length ∧ Keeps r' (past ++ requests.zip replies) := by
  induction requests generalizing r past with
  | nil => exact ⟨[], r, rfl, rfl, by rwa [List.zip_nil_left, List.append_nil]⟩
  | cons request rest ih =>
      obtain ⟨reply, r₁, events, ha, h₁⟩ := answer h request
      obtain ⟨replies, r', hrest, hlen, h'⟩ := ih h₁
      refine ⟨reply :: replies, r', ?_, congrArg (· + 1) hlen, ?_⟩
      · rw [Authority.replies_cons, ha, hrest, List.map_cons]
      · rwa [List.zip_cons_cons, ← List.singleton_append, ← List.append_assoc]

/-- **After any series of requests, the registry reflects them.** -/
theorem replies_reflected (h : Reflects r past) (requests : List Request) :
    ∃ (replies : List Reply) (r' : Registry),
      authority.replies requests ⟨some r⟩ = (replies.map .ok, ⟨some r'⟩) ∧
        replies.length = requests.length ∧ r'.firstIndex = r.firstIndex ∧
        Reflects r' (past ++ requests.zip replies) := by
  let Keeps (r' : Registry) (past : List (Request × Reply)) : Prop :=
    r'.firstIndex = r.firstIndex ∧ Reflects r' past
  refine @replies_kept r past Keeps ?_ ⟨rfl, h⟩ requests
  rintro r₁ past₁ ⟨hfirst, h₁⟩ request
  obtain ⟨reply, r', events, ha, hfirst', h'⟩ := answer_reflected h₁ request
  exact ⟨reply, r', events, ha, hfirst'.trans hfirst, h'⟩

/-- The three containers of a registry that counts from `first`, after `past`. -/
structure InStep (first : UInt32) (past : List (Request × Reply)) (r : Registry) : Prop where
  size : r.objects.size = (creations past).length
  numbered : ∀ (i : Nat) (e : Entry), r.objects[i]? = some e →
    e.slot.number.toNat = i ∧ e.handle.raw.toNat = 4 * (first.toNat + i + 1)
  made : ∀ (i : Nat) (c : CreateRequest × Reply), (creations past)[i]? = some c →
    ∃ e, r.objects[i]? = some e ∧ c.2 = e.reply .success
  byHandle : ∀ (raw : UInt32) (i : Nat), r.byHandle[raw]? = some i ↔
    ∃ e : Entry, r.objects[i]? = some e ∧ e.handle.raw = raw
  byName : ∀ (name : String) (i : Nat), r.byName[name]? = some i ↔
    ∃ c, (creations past)[i]? = some c ∧ nameOf c.1 = some name
  nonempty : ∀ (name : String) (i : Nat), r.byName[name]? = some i → name ≠ ""
  distinct : ∀ (name other : String) (i : Nat), r.byName[name]? = some i →
    r.byName[other]? = some i → name = other
  indexed : (∀ (raw : UInt32) (i : Nat), r.byHandle[raw]? = some i → i < r.objects.size) ∧
    ∀ (name : String) (i : Nat), r.byName[name]? = some i → i < r.objects.size

/-- What the registry holds, told from the past alone. -/
theorem inStep_of_reflects (h : Reflects r past) : InStep r.firstIndex past r where
  size := h.length_eq.symm
  numbered := h.wellFormed.numbered
  made _ _ hc := h.exists_entry hc
  byHandle := h.wellFormed.byHandle
  byName := h.named
  nonempty name i hi := by
    obtain ⟨c, -, hn⟩ := (h.named name i).mp hi
    exact Registry.nameOf_ne_empty hn
  distinct name other i hi hj := by
    obtain ⟨c, hc, hcn⟩ := (h.named name i).mp hi
    obtain ⟨d, hd, hdn⟩ := (h.named other i).mp hj
    obtain rfl : c = d := Option.some.inj (hc.symm.trans hd)
    exact Option.some.inj (hcn.symm.trans hdn)
  indexed := by
    refine ⟨?_, h.wellFormed.byName⟩
    intro raw i hi
    obtain ⟨e, he, -⟩ := (h.wellFormed.byHandle raw i).mp hi
    exact (Array.getElem?_eq_some_iff.mp he).1

/-- **A new authority's answers are told from its past.**  Whatever requests it was sent, all were
answered, its objects, handles and names are those that the successful creations made, and so is
what it answers next. -/
theorem answers_told_by_past {system : System} {config : Config} {firstIndex : UInt32}
    {m : MemoryAuthority} {events : List Event}
    (made : create system config firstIndex = ⟨.ok m, (), events⟩) (requests : List Request) :
    ∃ (replies : List Reply) (r : Registry),
      authority.replies requests m = (replies.map .ok, ⟨some r⟩) ∧
      replies.length = requests.length ∧
      InStep firstIndex (requests.zip replies) r ∧
      (∀ request, ∃ reply, (authority.answer (.create request) ⟨some r⟩).result = .ok reply ∧
        AnswersCreate firstIndex (requests.zip replies) request reply) ∧
      ∀ handle, ∃ reply, (authority.answer (.query handle) ⟨some r⟩).result = .ok reply ∧
        AnswersQuery (requests.zip replies) handle reply := by
  obtain ⟨path, size, rfl⟩ := World.of_create made
  obtain ⟨replies, r, hreplies, hlen, hfirst, h⟩ :=
    replies_reflected (Registry.reflects_start path size firstIndex) requests
  rw [List.nil_append] at h
  obtain rfl : r.firstIndex = firstIndex := hfirst
  refine ⟨replies, r, hreplies, hlen, inStep_of_reflects h, ?_, ?_⟩
  · intro request
    obtain ⟨reply, r', events, hc, -, -, hanswers⟩ := h.create request
    refine ⟨reply, ?_, hanswers⟩
    simp only [Authority.answer, authority, hc, Outcome.inside]
  · intro handle
    exact ⟨r.query handle, rfl, h.answersQuery handle⟩

/-- The last handle that there is. -/
def lastHandle : Handle := ⟨0xFFFFFFFC, by decide⟩

/-- A semaphore named `s` gets the last handle: the next one without a name gets none, and `s`
itself is still opened. -/
theorem answers_told_by_past_small : ∃ r,
    authority.replies [.create World.Small.request]
        ⟨some (.start World.Small.path .usual 0x3FFFFFFE)⟩ =
      ([.ok ⟨.success, some lastHandle, ⟨0⟩, 1⟩], ⟨some r⟩) ∧
    (authority.answer (.create { high := 1 }) ⟨some r⟩).result = .ok (.bare .noMemory) ∧
    (authority.answer (.create World.Small.request) ⟨some r⟩).result =
      .ok ⟨.objectNameExists, some lastHandle, ⟨0⟩, 1⟩ ∧
    (authority.answer (.query lastHandle) ⟨some r⟩).result =
      .ok ⟨.success, some lastHandle, ⟨0⟩, 1⟩ := by
  obtain ⟨replies, r, hreplies, -, -, hcreate, hquery⟩ :=
    answers_told_by_past (World.Small.create_eq 0x3FFFFFFE) [.create World.Small.request]
  have hfirst : (authority.replies [.create World.Small.request]
      ⟨some (.start World.Small.path .usual 0x3FFFFFFE)⟩).1 =
        [.ok ⟨.success, some lastHandle, ⟨0⟩, 1⟩] := by cbv
  have hmap : replies.map .ok = [(⟨.success, some lastHandle, ⟨0⟩, 1⟩ : Reply)].map
      (Except.ok : Reply → Except SyncError Reply) := by
    rw [hreplies] at hfirst
    exact hfirst
  obtain rfl := (List.map_injective_iff.mpr fun _ _ => Except.ok.inj) hmap
  have hmem : (World.Small.request, (⟨.success, some lastHandle, ⟨0⟩, 1⟩ : Reply)) ∈
      creations ([.create World.Small.request].zip [⟨.success, some lastHandle, ⟨0⟩, 1⟩]) :=
    Registry.mem_creations.mpr ⟨List.mem_cons_self .., rfl⟩
  have hname : nameOf World.Small.request = some "s" := by cbv
  refine ⟨r, hreplies, ?exhausted, ?existing, ?found⟩
  case exhausted =>
    obtain ⟨reply, hreply, hanswers⟩ := hcreate { high := 1 }
    have hnew : ¬ Registry.Taken ([.create World.Small.request].zip
        [⟨.success, some lastHandle, ⟨0⟩, 1⟩]) { high := 1 } := by
      rintro ⟨_, -, name, hn, -⟩
      cases hn
    have hs : reply.status = .noMemory := hanswers.exhausted.mpr
      ⟨by unfold CreateRequest.AsksSemaphore; decide, hnew, by decide⟩
    rw [hreply, hanswers.bare (.inr hs), hs]
  case existing =>
    obtain ⟨reply, hreply, hanswers⟩ := hcreate World.Small.request
    have hs : reply.status = .objectNameExists := hanswers.existing.mpr
      ⟨by unfold CreateRequest.AsksSemaphore; decide, _, hmem, "s", hname, hname⟩
    rw [hreply, hanswers.original hs _ hmem "s" hname hname]
  case found =>
    obtain ⟨reply, hreply, hanswers⟩ := hquery lastHandle
    rw [hreply, hanswers.object _ hmem rfl]

end MemoryAuthority

end SharedSync
