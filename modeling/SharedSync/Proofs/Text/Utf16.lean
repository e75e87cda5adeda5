import SharedSync.Text

/-!
# Text — every string is read back from its UTF-16

* `decode?_encode`: the units of a string decode to that string.
* `encode_of_decode?`: no other units do.
* `ofBytes_toBytes`, `toBytes_ofBytes`: units are read back from their bytes, and written again.
-/

namespace SharedSync.Utf16

/-! ### Characters -/

theorem toNat_ofNat_of_lt {n : Nat} (h : n < 0x10000) : (UInt16.ofNat n).toNat = n :=
  UInt16.toNat_ofNat_of_lt' h

theorem isLow_eq (u : UInt16) : isLow u = decide (0xDC00 ≤ u.toNat ∧ u.toNat < 0xE000) := by
  rw [isLow, Bool.decide_and]
  rfl

theorem isHigh_eq (u : UInt16) : isHigh u = decide (0xD800 ≤ u.toNat ∧ u.toNat < 0xDC00) := by
  rw [isHigh, Bool.decide_and]
  rfl

/-- No character is a surrogate, or beyond the last plane. -/
theorem toNat_valid (c : Char) : c.toNat < 0xD800 ∨ 0xDFFF < c.toNat ∧ c.toNat < 0x110000 := c.valid

/-- A character below U+10000 is read back from its one unit. -/
theorem decodeOnto_single (before : List Char) {c : Char} (h : c.toNat < 0x10000)
    (rest : List UInt16) :
    decodeOnto before (UInt16.ofNat c.toNat :: rest) = decodeOnto (c :: before) rest := by
  have hn := toNat_ofNat_of_lt h
  have hv := toNat_valid c
  have hlow : isLow (UInt16.ofNat c.toNat) = false := by
    rw [isLow_eq, hn]
    exact decide_eq_false (by omega)
  have hhigh : isHigh (UInt16.ofNat c.toNat) = false := by
    rw [isHigh_eq, hn]
    exact decide_eq_false (by omega)
  rw [decodeOnto.eq_def]
  simp only [hlow, hhigh, Bool.false_eq_true, if_false, hn, Char.ofNat_toNat]

/-- A character from U+10000 on is read back from its pair of surrogates. -/
theorem decodeOnto_pair (before : List Char) {c : Char} (h : 0x10000 ≤ c.toNat)
    (rest : List UInt16) :
    decodeOnto before (UInt16.ofNat (0xD800 + (c.toNat - 0x10000) / 0x400) ::
        UInt16.ofNat (0xDC00 + (c.toNat - 0x10000) % 0x400) :: rest) =
      decodeOnto (c :: before) rest := by
  have hv := toNat_valid c
  -- both units are below 2¹⁶, because the character is below U+110000
  have hh := toNat_ofNat_of_lt (n := 0xD800 + (c.toNat - 0x10000) / 0x400) (by omega)
  have hl := toNat_ofNat_of_lt (n := 0xDC00 + (c.toNat - 0x10000) % 0x400) (by omega)
  have hnot : isLow (UInt16.ofNat (0xD800 + (c.toNat - 0x10000) / 0x400)) = false := by
    rw [isLow_eq, hh]
    exact decide_eq_false (by omega)
  have hhigh : isHigh (UInt16.ofNat (0xD800 + (c.toNat - 0x10000) / 0x400)) = true := by
    rw [isHigh_eq, hh]
    exact decide_eq_true (by omega)
  have hlow : isLow (UInt16.ofNat (0xDC00 + (c.toNat - 0x10000) % 0x400)) = true := by
    rw [isLow_eq, hl]
    exact decide_eq_true (by omega)
  have hcombine : combine (UInt16.ofNat (0xD800 + (c.toNat - 0x10000) / 0x400))
      (UInt16.ofNat (0xDC00 + (c.toNat - 0x10000) % 0x400)) = c := by
    rw [combine, hh, hl, show 0x10000 + (0xD800 + (c.toNat - 0x10000) / 0x400 - 0xD800) * 0x400 +
      (0xDC00 + (c.toNat - 0x10000) % 0x400 - 0xDC00) = c.toNat by omega, Char.ofNat_toNat]
  rw [decodeOnto, hnot, hhigh]
  simp only [Bool.false_eq_true, if_false, if_true, hlow, hcombine]

/-- The units of a character are read as that character. -/
theorem decodeOnto_unitsOf (before : List Char) (c : Char) (rest : List UInt16) :
    decodeOnto before (unitsOf c ++ rest) = decodeOnto (c :: before) rest := by
  unfold unitsOf
  by_cases h : c.toNat < 0x10000
  · rw [if_pos h]
    exact decodeOnto_single before h rest
  · rw [if_neg h]
    exact decodeOnto_pair before (Nat.not_lt.mp h) rest

/-- The units of a text are read as that text. -/
theorem decodeOnto_flatMap (before chars : List Char) :
    decodeOnto before (chars.flatMap unitsOf) = some (before.reverse ++ chars) := by
  induction chars generalizing before with
  | nil => rw [List.flatMap_nil, decodeOnto, List.append_nil]
  | cons c chars ih =>
      rw [List.flatMap_cons, decodeOnto_unitsOf, ih, List.reverse_cons, List.append_assoc]
      rfl

/-- **A string is read back from its units.** -/
theorem decode?_encode (s : String) : decode? (encode s) = some s := by
  rw [decode?, encode, decodeOnto_flatMap, Option.map_some, List.reverse_nil, List.nil_append,
    String.ofList_toList]

/-! ### What decodes was encoded -/

theorem toNat_char {n : Nat} (h : n.isValidChar) : (Char.ofNat n).toNat = n := by
  rw [Char.ofNat, dif_pos h]
  rfl

/-- A unit that is no surrogate is a character of its own. -/
theorem unitsOf_ofNat {u : UInt16} (hlow : ¬ isLow u = true) (hhigh : ¬ isHigh u = true) :
    unitsOf (Char.ofNat u.toNat) = [u] := by
  rw [isLow_eq, decide_eq_true_eq] at hlow
  rw [isHigh_eq, decide_eq_true_eq] at hhigh
  have hlt := u.toNat_lt
  have hvalid : u.toNat.isValidChar := by
    unfold Nat.isValidChar
    omega
  rw [unitsOf, toNat_char hvalid, if_pos hlt, UInt16.ofNat_toNat]

/-- A pair of surrogates is the pair of the character that it stands for. -/
theorem unitsOf_combine {u v : UInt16} (hu : isHigh u = true) (hv : isLow v = true) :
    unitsOf (combine u v) = [u, v] := by
  rw [isHigh_eq, decide_eq_true_eq] at hu
  rw [isLow_eq, decide_eq_true_eq] at hv
  have hn : (combine u v).toNat =
      0x10000 + (u.toNat - 0xD800) * 0x400 + (v.toNat - 0xDC00) := by
    refine toNat_char ?_
    unfold Nat.isValidChar
    omega
  have hge : ¬ (combine u v).toNat < 0x10000 := by omega
  have hhigh : 0xD800 + ((combine u v).toNat - 0x10000) / 0x400 = u.toNat := by omega
  have hlow : 0xDC00 + ((combine u v).toNat - 0x10000) % 0x400 = v.toNat := by omega
  simp only [unitsOf, if_neg hge, hhigh, hlow, UInt16.ofNat_toNat]

/-- What was read has these units. -/
theorem flatMap_of_decodeOnto {before chars : List Char} {units : List UInt16}
    (h : decodeOnto before units = some chars) :
    ∃ more, chars = before.reverse ++ more ∧ more.flatMap unitsOf = units := by
  fun_induction decodeOnto before units with
  | case1 before =>
      cases h
      exact ⟨[], (List.append_nil _).symm, rfl⟩
  | case2 => cases h
  | case3 => cases h
  | case4 before u hlow hhigh v rest hv ih =>
      obtain ⟨more, rfl, rfl⟩ := ih h
      refine ⟨combine u v :: more, ?_, ?_⟩
      · rw [List.reverse_cons, List.append_assoc]
        rfl
      · rw [List.flatMap_cons, unitsOf_combine hhigh hv]
        rfl
  | case5 => cases h
  | case6 before u rest hlow hhigh ih =>
      obtain ⟨more, rfl, rfl⟩ := ih h
      refine ⟨Char.ofNat u.toNat :: more, ?_, ?_⟩
      · rw [List.reverse_cons, List.append_assoc]
        rfl
      · rw [List.flatMap_cons, unitsOf_ofNat hlow hhigh]
        rfl

/-- **Only the units of a string decode to it.** -/
theorem encode_of_decode? {units : List UInt16} {s : String} (h : decode? units = some s) :
    encode s = units := by
  obtain ⟨chars, hchars, rfl⟩ := Option.map_eq_some_iff.mp h
  obtain ⟨more, rfl, hmore⟩ := flatMap_of_decodeOnto hchars
  rw [encode, String.toList_ofList]
  exact hmore

/-! ### Bytes of units -/

theorem ofBytesOnto_toBytes (before units : List UInt16) :
    ofBytesOnto before (toBytes units) = before.reverse ++ units := by
  induction units generalizing before with
  | nil => exact (List.append_nil _).symm
  | cons u units ih =>
      have hu : u.toNat % Words.values 2 = u.toNat := Nat.mod_eq_of_lt u.toNat_lt
      have hread : UInt16.ofNat (Words.ofLittleEndian (Words.le16 u)) = u := by
        rw [Words.le16, Words.ofLittleEndian_littleEndian, hu, UInt16.ofNat_toNat]
      have hstep : ofBytesOnto before (toBytes (u :: units)) =
          ofBytesOnto (UInt16.ofNat (Words.ofLittleEndian (Words.le16 u)) :: before)
            (toBytes units) := rfl
      rw [hstep, hread, ih, List.reverse_cons, List.append_assoc]
      rfl

theorem ofBytes_toBytes (units : List UInt16) : ofBytes (toBytes units) = units :=
  ofBytesOnto_toBytes [] units

/-- Bytes read as units are written as these bytes, if none is left over. -/
theorem toBytes_ofBytesOnto (before : List UInt16) {bs : Bytes} (h : bs.length % 2 = 0) :
    toBytes (ofBytesOnto before bs) = toBytes before.reverse ++ bs := by
  fun_induction ofBytesOnto before bs with
  | case1 before lo hi rest ih =>
      have hpair : Words.le16 (UInt16.ofNat (Words.ofLittleEndian [lo, hi])) = [lo, hi] := by
        have hlt : Words.ofLittleEndian [lo, hi] < 2 ^ 16 := Words.ofLittleEndian_lt [lo, hi]
        rw [Words.le16, UInt16.toNat_ofNat_of_lt' hlt]
        exact Words.littleEndian_ofLittleEndian [lo, hi]
      have hrest : rest.length % 2 = 0 := by
        simp only [List.length_cons] at h
        omega
      rw [ih hrest, List.reverse_cons, toBytes, List.flatMap_append,
        List.flatMap_singleton, hpair, ← toBytes, List.append_assoc]
      rfl
  | case2 bs before hshort =>
      rcases bs with - | ⟨lo, - | ⟨hi, rest⟩⟩
      · exact (List.append_nil _).symm
      · exact absurd h Nat.one_ne_zero
      · exact (hshort lo hi rest rfl).elim

/-- **Bytes are written again from their units**, if none is left over. -/
theorem toBytes_ofBytes {bs : Bytes} (h : bs.length % 2 = 0) : toBytes (ofBytes bs) = bs :=
  toBytes_ofBytesOnto [] h

/-- Two bytes for each unit. -/
theorem length_toBytes (units : List UInt16) : (toBytes units).length = 2 * units.length := by
  induction units with
  | nil => rfl
  | cons u units ih =>
      rw [toBytes, List.flatMap_cons, List.length_append, Words.length_le16, ← toBytes, ih,
        List.length_cons]
      omega

theorem unitsOf_ne_nil (c : Char) : unitsOf c ≠ [] := by
  unfold unitsOf
  split
  · exact List.cons_ne_nil _ _
  · exact List.cons_ne_nil _ _

/-- Only the empty string has no units. -/
theorem encode_eq_nil_iff (s : String) : encode s = [] ↔ s = "" := by
  rw [encode, List.flatMap_eq_nil_iff, ← String.toList_eq_nil_iff]
  constructor
  · intro h
    refine List.eq_nil_iff_forall_not_mem.mpr fun c hc => unitsOf_ne_nil c (h c hc)
  · intro h c hc
    rw [h] at hc
    cases hc

end SharedSync.Utf16
