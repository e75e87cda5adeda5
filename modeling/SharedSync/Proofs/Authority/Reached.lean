import SharedSync.Proofs.Authority.History

/-!
# Authority — the creations of a past are distinct objects

`Reached m past` says that an authority in this process, new or taking no part, came to the state
`m` by the exchanges in `past`.

* `Reached.distinct`: no two creations of a past share a handle, a slot or a name, and a reply that
  says that a name exists is about the one creation that took it.
-/

namespace SharedSync

namespace Registry

variable {past : List (Request × Reply)} {r : Registry}

/-- Every object was made by one creation. -/
structure Distinct (past : List (Request × Reply)) : Prop where
  creations : (creations past).Pairwise fun c d => c.2.handle ≠ d.2.handle ∧ c.2.slot ≠ d.2.slot ∧
    ∀ name, nameOf c.1 = some name → nameOf d.1 ≠ some name
  opened : ∀ (request : CreateRequest) (reply : Reply), (.create request, reply) ∈ past →
    reply.status = .objectNameExists → ∃ c ∈ Registry.creations past, ∃ name,
      nameOf request = some name ∧ nameOf c.1 = some name ∧
        reply = { c.2 with status := .objectNameExists }

/-- Two creations at different positions made different objects. -/
theorem Reflects.distinct (h : Reflects r past) : Distinct past := by
  refine ⟨?_, h.opened⟩
  rw [List.pairwise_iff_getElem]
  intro i j hi hj hlt
  have hci : (creations past)[i]? = some (creations past)[i] := List.getElem?_eq_getElem hi
  have hcj : (creations past)[j]? = some (creations past)[j] := List.getElem?_eq_getElem hj
  generalize (creations past)[i] = c at hci
  generalize (creations past)[j] = d at hcj
  obtain ⟨e, he, hc⟩ := h.exists_entry hci
  obtain ⟨e', he', hd⟩ := h.exists_entry hcj
  -- the two objects have different numbers, and so have their handles and slots
  obtain ⟨hslot, hhandle⟩ := h.wellFormed.numbered i e he
  obtain ⟨hslot', hhandle'⟩ := h.wellFormed.numbered j e' he'
  rw [hc, hd]
  refine ⟨?_, ?_, ?_⟩
  · intro hsame
    have hraw : e.handle = e'.handle := Option.some.inj hsame
    rw [hraw] at hhandle
    omega
  · intro hsame
    have hnumber : e.slot = e'.slot := hsame
    rw [hnumber] at hslot
    omega
  · intro name hcn hdn
    have hij := (h.creation_unique hci hcj hcn hdn).1
    omega

/-- Where nothing is supported, nothing is made. -/
theorem distinct_of_unsupported (h : ∀ exchange ∈ past, exchange.2 = .bare .notImplemented) :
    Distinct past := by
  have hnone : creations past = [] := by
    refine List.eq_nil_iff_forall_not_mem.mpr fun c hc => ?_
    obtain ⟨hmem, hs⟩ := mem_creations.mp hc
    rw [h _ hmem] at hs
    cases hs
  refine ⟨hnone ▸ .nil, fun request reply hmem hs => ?_⟩
  obtain rfl : reply = .bare .notImplemented := h _ hmem
  cases hs

end Registry

namespace MemoryAuthority

open Registry (Reflects Distinct)

/-- The authority came to its state by the exchanges in `past`. -/
inductive Reached : MemoryAuthority → List (Request × Reply) → Prop where
  | takesNoPart : Reached .unsupported []
  | created {system config firstIndex m events}
      (made : create system config firstIndex = ⟨.ok m, (), events⟩) : Reached m []
  | answered {m past request reply m' events} (before : Reached m past)
      (answer : authority.answer request m = ⟨.ok reply, m', events⟩) :
      Reached m' (past ++ [(request, reply)])

variable {m m' : MemoryAuthority} {past : List (Request × Reply)}

/-- An authority takes no part, or has a registry that reflects its past. -/
theorem Reached.cases (h : Reached m past) :
    (m = .unsupported ∧ ∀ exchange ∈ past, exchange.2 = .bare .notImplemented) ∨
      ∃ r, m = ⟨some r⟩ ∧ Reflects r past := by
  induction h with
  | takesNoPart => exact .inl ⟨rfl, nofun⟩
  | @created system config firstIndex m events made =>
      obtain ⟨path, size, rfl⟩ := World.of_create made
      exact .inr ⟨_, rfl, Registry.reflects_start path size firstIndex⟩
  | @answered m past request reply m' events _ answer ih =>
      rcases ih with ⟨rfl, hbare⟩ | ⟨r, rfl, hr⟩
      · have hnone : authority.answer request unsupported =
            ⟨.ok (.bare .notImplemented), unsupported, []⟩ := by cases request <;> rfl
        rw [hnone] at answer
        cases answer
        refine .inl ⟨rfl, fun exchange hmem => ?_⟩
        rcases List.mem_append.mp hmem with hmem | hmem
        · exact hbare exchange hmem
        · rw [List.mem_singleton.mp hmem]
      · obtain ⟨reply', r', events', hanswer, -, hr'⟩ := answer_reflected hr request
        rw [hanswer] at answer
        cases answer
        exact .inr ⟨r', rfl, hr'⟩

/-- **No two creations of a past made the same object.** -/
theorem Reached.distinct (h : Reached m past) : Distinct past := by
  rcases h.cases with ⟨-, hbare⟩ | ⟨r, -, hr⟩
  · exact Registry.distinct_of_unsupported hbare
  · exact hr.distinct

/-- More exchanges, one after the other. -/
theorem Reached.replies (h : Reached m past) {more : List (Request × Reply)}
    (hmore : authority.replies (more.map Prod.fst) m = (more.map fun x => .ok x.2, m')) :
    Reached m' (past ++ more) := by
  induction more generalizing m past with
  | nil =>
      obtain rfl : m = m' := congrArg Prod.snd hmore
      rwa [List.append_nil]
  | cons x more ih =>
      obtain ⟨request, reply⟩ := x
      rcases ha : authority.answer request m with ⟨result, m₁, events⟩
      rw [List.map_cons, Authority.replies_cons, ha, List.map_cons, Prod.mk.injEq,
        List.cons.injEq] at hmore
      obtain ⟨⟨rfl, hresults⟩, hstate⟩ := hmore
      rw [List.append_cons]
      exact ih (h.answered ha) (Prod.ext hresults hstate)

end MemoryAuthority

end SharedSync
