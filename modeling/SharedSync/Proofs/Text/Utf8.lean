import Mathlib
import SharedSync.Text

/-!
# Text — the front of a text, byte by byte

The bytes below `0x80` stand for themselves in UTF-8, and no byte of any other character is among
them.  So the bytes and the characters of a text agree up to the first that is not.

* `le_toNat_of_scan`: what starts with another byte is no character below `0x80`.
* `front_eq`: the bytes and the characters of a text have the same front.
-/

namespace SharedSync.Utf8

variable {b : UInt8} {rest : Bytes}

/-- A byte below `0x80` is a character. -/
theorem scan_of_lt (h : b.toNat < 0x80) (rest : Bytes) :
    scan (b :: rest) = some (Char.ofNat b.toNat) :: scan rest := by
  have hlead : lead? b = some { count := 0, bits := b.toNat } := if_pos (UInt8.lt_iff_toNat_lt.mpr h)
  rw [scan, hlead]
  rfl

/-- The scan of a byte and what follows it, whatever that is. -/
theorem scan_cons (b : UInt8) (rest : Bytes) : ∃ first more, scan (b :: rest) = first :: more ∧
    first = (lead? b).bind fun l => (follow l.count l.least l.most l.bits rest).1.map Char.ofNat := by
  rw [scan]
  cases lead? b with
  | none => exact ⟨_, _, rfl, rfl⟩
  | some l => exact ⟨_, _, rfl, rfl⟩

/-- The code point that continuation bytes complete lies among those that they can. -/
theorem follow_bounds {n point found : Nat} {least most : UInt8} (bs : Bytes)
    (hleast : 0x80 ≤ least.toNat) (h : (follow (n + 1) least most point bs).1 = some found) :
    (point * 64 + (least.toNat - 0x80)) * 64 ^ n ≤ found ∧
      found < (point * 64 + (most.toNat - 0x80) + 1) * 64 ^ n := by
  induction n generalizing point least most bs with
  | zero =>
      rcases bs with - | ⟨b, rest⟩
      · cases h
      · rw [follow] at h
        split at h
        · next hb =>
            simp only [Bool.and_eq_true, decide_eq_true_eq, UInt8.le_iff_toNat_le] at hb
            obtain rfl := Option.some.inj h
            omega
        · cases h
  | succ n ih =>
      rcases bs with - | ⟨b, rest⟩
      · cases h
      · rw [follow] at h
        split at h
        · next hb =>
            simp only [Bool.and_eq_true, decide_eq_true_eq, UInt8.le_iff_toNat_le] at hb
            obtain ⟨low, high⟩ := ih rest (by decide) h
            have hlow : (point * 64 + (least.toNat - 0x80)) * 64 ≤
                (point * 64 + (b.toNat - 0x80)) * 64 + (0x80 - 0x80) := by omega
            have hhigh : (point * 64 + (b.toNat - 0x80)) * 64 + (0xBF - 0x80) + 1 ≤
                (point * 64 + (most.toNat - 0x80) + 1) * 64 := by omega
            rw [Nat.pow_succ', ← Nat.mul_assoc, ← Nat.mul_assoc]
            exact ⟨Nat.le_trans (Nat.mul_le_mul_right _ hlow) low,
              Nat.lt_of_lt_of_le high (Nat.mul_le_mul_right _ hhigh)⟩
        · cases h

/-- The code points from `low` up to `high` are beyond ASCII, and none is a surrogate. -/
def AreWide (low high : Nat) : Prop :=
  0x80 ≤ low ∧ (high ≤ 0xD800 ∨ 0xE000 ≤ low ∧ high ≤ 0x110000)

theorem AreWide.toNat_ofNat {low high point : Nat} (h : AreWide low high) (hlow : low ≤ point)
    (hhigh : point < high) : (Char.ofNat point).toNat = point := by
  have valid : point.isValidChar := by
    rcases h with ⟨-, below | ⟨above, within⟩⟩
    · exact .inl (Nat.lt_of_lt_of_le hhigh below)
    · exact .inr ⟨Nat.lt_of_lt_of_le above hlow, Nat.lt_of_lt_of_le hhigh within⟩
  rw [Char.ofNat, dif_pos valid]
  rfl

/-- A leading byte from `0x80` on announces continuation bytes, and with any of them a code point
beyond ASCII. -/
theorem areWide_of_lead {l : Lead} (wide : 0x80 ≤ b.toNat) (hl : lead? b = some l) :
    ∃ n, l.count = n + 1 ∧ 0x80 ≤ l.least.toNat ∧
      AreWide ((l.bits * 64 + (l.least.toNat - 0x80)) * 64 ^ n)
        ((l.bits * 64 + (l.most.toNat - 0x80) + 1) * 64 ^ n) := by
  unfold AreWide
  -- one case for each range of leading bytes, in their order
  simp only [lead?, UInt8.lt_iff_toNat_lt, ← UInt8.toNat_inj, UInt8.reduceToNat] at hl
  split at hl
  · omega
  split at hl
  · cases hl
  split at hl
  · cases hl
    refine ⟨0, rfl, Nat.le_refl _, ?_⟩
    simp only [UInt8.reduceToNat]
    omega
  split at hl
  · cases hl
    exact ⟨1, rfl, by decide, by decide⟩
  split at hl
  · cases hl
    exact ⟨1, rfl, by decide, by decide⟩
  split at hl
  · cases hl
    refine ⟨1, rfl, Nat.le_refl _, ?_⟩
    simp only [UInt8.reduceToNat]
    omega
  split at hl
  · cases hl
    exact ⟨2, rfl, by decide, by decide⟩
  split at hl
  · cases hl
    refine ⟨2, rfl, Nat.le_refl _, ?_⟩
    simp only [UInt8.reduceToNat]
    omega
  split at hl
  · cases hl
    exact ⟨2, rfl, by decide, by decide⟩
  · cases hl

/-- **What another byte leads to is no ASCII character.** -/
theorem le_toNat_of_scan {c : Char} {more : List (Option Char)} (wide : 0x80 ≤ b.toNat)
    (h : scan (b :: rest) = some c :: more) : 0x80 ≤ c.toNat := by
  obtain ⟨first, others, hscan, hfirst⟩ := scan_cons b rest
  obtain ⟨rfl, -⟩ := List.cons.inj (h.symm.trans hscan)
  obtain ⟨l, hl, hc⟩ := Option.bind_eq_some_iff.mp hfirst.symm
  obtain ⟨point, hpoint, rfl⟩ := Option.map_eq_some_iff.mp hc
  obtain ⟨n, hn, hleast, range⟩ := areWide_of_lead wide hl
  rw [hn] at hpoint
  obtain ⟨low, high⟩ := follow_bounds rest hleast hpoint
  rw [range.toNat_ofNat low high]
  exact Nat.le_trans range.1 low

/-! ### The front -/

/-- The codes in front of the first that is not ASCII. -/
def front (codes : List Nat) : List Nat := codes.takeWhile (· < 0x80)

theorem front_cons_of_lt {code : Nat} (h : code < 0x80) (codes : List Nat) :
    front (code :: codes) = code :: front codes := List.takeWhile_cons_of_pos (decide_eq_true h)

theorem front_cons_of_le {code : Nat} (h : 0x80 ≤ code) (codes : List Nat) :
    front (code :: codes) = [] :=
  List.takeWhile_cons_of_neg (by simpa using h)

/-- Bytes and characters agree up to the first that is not ASCII. -/
theorem front_of_scan {bs : Bytes} {cs : List Char} (h : scan bs = cs.map some) :
    front (bs.map UInt8.toNat) = front (cs.map Char.toNat) := by
  induction bs generalizing cs with
  | nil =>
      rw [scan] at h
      rw [List.map_eq_nil_iff.mp h.symm]
      rfl
  | cons b rest ih =>
      rcases cs with - | ⟨c, cs⟩
      · obtain ⟨first, more, hscan, -⟩ := scan_cons b rest
        cases h.symm.trans hscan
      · rcases Nat.lt_or_ge b.toNat 0x80 with ascii | wide
        · rw [scan_of_lt ascii, List.map_cons] at h
          obtain ⟨hc, hrest⟩ := List.cons.inj h
          have hcode : c.toNat = b.toNat := by
            have valid : b.toNat.isValidChar := .inl (by omega)
            rw [← Option.some.inj hc, Char.ofNat, dif_pos valid]
            rfl
          rw [List.map_cons, List.map_cons, hcode, front_cons_of_lt ascii, front_cons_of_lt ascii,
            ih hrest]
        · rw [List.map_cons, List.map_cons, front_cons_of_le wide,
            front_cons_of_le (le_toNat_of_scan wide h)]

/-- A text has no ill-formed piece. -/
theorem eq_map_some_of_mapM {found : List (Option Char)} {cs : List Char}
    (h : found.mapM id = some cs) : found = cs.map some := by
  induction found generalizing cs with
  | nil =>
      obtain rfl := Option.some.inj h
      rfl
  | cons first more ih =>
      simp only [List.mapM_cons, id, Option.bind_eq_bind, Option.bind_eq_some_iff,
        Option.pure_def, Option.some.injEq] at h
      obtain ⟨c, rfl, cs, hcs, rfl⟩ := h
      rw [List.map_cons, ih hcs]

/-- A text has no ill-formed piece. -/
theorem scan_of_decode? {bs : Bytes} {text : String} (h : decode? bs = some text) :
    scan bs = text.toList.map some := by
  obtain ⟨cs, hcs, rfl⟩ := Option.map_eq_some_iff.mp h
  rw [String.toList_ofList]
  exact eq_map_some_of_mapM hcs

/-- **The bytes and the characters of a text have the same front.** -/
theorem front_eq {bs : Bytes} {text : String} (h : decode? bs = some text) :
    front (bs.map UInt8.toNat) = front (text.toList.map Char.toNat) :=
  front_of_scan (scan_of_decode? h)

end SharedSync.Utf8
