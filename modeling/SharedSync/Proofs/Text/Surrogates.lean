import SharedSync.Proofs.Text.Utf16

/-!
# Text — which units are UTF-16

A sequence of units is well-formed when its surrogates stand in pairs: behind every high one there
is a low one, and in front of every low one a high one (`WellFormed`).

* `wellFormed_cons`, `wellFormed_pair`: a unit that is no surrogate, or a pair, in front of others
  does not matter.
* `isSome_decode?_iff`: just the well-formed sequences are decoded.
-/

namespace SharedSync.Utf16

/-- The surrogates stand in pairs. -/
structure WellFormed (units : List UInt16) : Prop where
  /-- Every high surrogate is followed by a low one, -/
  followed : ∀ i, (units[i]?).any isHigh → (units[i + 1]?).any isLow
  /-- and no low one stands alone. -/
  preceded : ∀ i, (units[i]?).any isLow → ∃ j, j + 1 = i ∧ (units[j]?).any isHigh

variable {u v : UInt16} {units : List UInt16}

/-- No unit is both halves of a pair. -/
theorem not_isLow_of_isHigh (h : isHigh u = true) : isLow u = false := by
  rw [isHigh_eq, decide_eq_true_eq] at h
  rw [isLow_eq]
  exact decide_eq_false (by omega)

theorem not_isHigh_of_isLow (h : isLow u = true) : isHigh u = false := by
  rw [isLow_eq, decide_eq_true_eq] at h
  rw [isHigh_eq]
  exact decide_eq_false (by omega)

theorem wellFormed_nil : WellFormed [] := ⟨nofun, nofun⟩

/-- No low surrogate comes first. -/
theorem WellFormed.not_isLow (h : WellFormed (u :: units)) : isLow u = false := by
  cases hu : isLow u with
  | false => rfl
  | true =>
      obtain ⟨j, hj, -⟩ := h.preceded 0 hu
      exact absurd hj (Nat.succ_ne_zero j)

/-- A high surrogate is not the last unit. -/
theorem WellFormed.exists_low (h : WellFormed (u :: units)) (hu : isHigh u = true) :
    ∃ v rest, units = v :: rest ∧ isLow v = true := by
  have hnext := h.followed 0 hu
  cases units with
  | nil => cases hnext
  | cons v rest => exact ⟨v, rest, rfl, hnext⟩

/-- A unit that is no surrogate stands for itself. -/
theorem wellFormed_cons (hlow : isLow u = false) (hhigh : isHigh u = false) :
    WellFormed (u :: units) ↔ WellFormed units := by
  constructor
  · intro h
    refine ⟨fun i => h.followed (i + 1), fun i hi => ?_⟩
    obtain ⟨- | j, hj, hhigh'⟩ := h.preceded (i + 1) hi
    · exact absurd (hhigh.symm.trans hhigh') nofun
    · exact ⟨j, Nat.succ.inj hj, hhigh'⟩
  · intro h
    constructor
    case followed =>
      intro i hi
      cases i with
      | zero => exact absurd (hhigh.symm.trans hi) nofun
      | succ i => exact h.followed i hi
    case preceded =>
      intro i hi
      cases i with
      | zero => exact absurd (hlow.symm.trans hi) nofun
      | succ i =>
          obtain ⟨j, rfl, hj⟩ := h.preceded i hi
          exact ⟨j + 1, rfl, hj⟩

/-- A high surrogate with a low one behind it stands for one character. -/
theorem wellFormed_pair (hu : isHigh u = true) (hv : isLow v = true) :
    WellFormed (u :: v :: units) ↔ WellFormed units := by
  have hv' := not_isHigh_of_isLow hv
  constructor
  · intro h
    refine ⟨fun i => h.followed (i + 2), fun i hi => ?_⟩
    obtain ⟨- | - | j, hj, hhigh⟩ := h.preceded (i + 2) hi
    · exact absurd hj (by omega)
    · exact absurd (hv'.symm.trans hhigh) nofun
    · exact ⟨j, Nat.succ.inj (Nat.succ.inj hj), hhigh⟩
  · intro h
    constructor
    case followed =>
      intro i hi
      match i with
      | 0 => exact hv
      | 1 => exact absurd (hv'.symm.trans hi) nofun
      | i + 2 => exact h.followed i hi
    case preceded =>
      intro i hi
      match i with
      | 0 => exact absurd ((not_isLow_of_isHigh hu).symm.trans hi) nofun
      | 1 => exact ⟨0, rfl, hu⟩
      | i + 2 =>
          obtain ⟨j, rfl, hj⟩ := h.preceded i hi
          exact ⟨j + 2, rfl, hj⟩

/-- The decoder accepts just the well-formed sequences. -/
theorem isSome_decodeOnto_iff (before : List Char) (units : List UInt16) :
    (decodeOnto before units).isSome ↔ WellFormed units := by
  fun_induction decodeOnto before units with
  | case1 => exact iff_of_true rfl wellFormed_nil
  | case2 before u rest hlow =>
      refine iff_of_false Bool.false_ne_true fun h => ?_
      exact Bool.false_ne_true (h.not_isLow.symm.trans hlow)
  | case3 before u hlow hhigh =>
      refine iff_of_false Bool.false_ne_true fun h => ?_
      obtain ⟨v, rest, hnil, -⟩ := h.exists_low hhigh
      cases hnil
  | case4 before u hlow hhigh v rest hv ih => rw [ih, wellFormed_pair hhigh hv]
  | case5 before u hlow hhigh v rest hv =>
      refine iff_of_false Bool.false_ne_true fun h => ?_
      obtain ⟨v', rest', hcons, hv'⟩ := h.exists_low hhigh
      cases hcons
      exact hv hv'
  | case6 before u rest hlow hhigh ih =>
      rw [Bool.not_eq_true] at hlow hhigh
      rw [ih, wellFormed_cons hlow hhigh]

/-- **Just the well-formed sequences are decoded.** -/
theorem isSome_decode?_iff (units : List UInt16) : (decode? units).isSome ↔ WellFormed units := by
  rw [decode?, Option.isSome_map, isSome_decodeOnto_iff]

/-- A pair is decoded; its halves the other way round, or alone, are not. -/
example : (decode? [0xD83D, 0xDE00]).isSome ∧ decode? [0xDE00, 0xD83D] = none ∧
    decode? [0x41, 0xD83D] = none := by decide

end SharedSync.Utf16
