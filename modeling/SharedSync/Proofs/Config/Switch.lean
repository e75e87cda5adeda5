import SharedSync.Config
import SharedSync.Proofs.Text.Utf8

/-!
# Configuration — the number in the switch

The switch is meant to be read as C reads a number (`atoi`): blanks, one sign, decimal digits, and
it is on if the number is not zero.  The number is never computed here, and the two readings differ
in the blanks they skip, and in what they make of bytes that are no text.

* `atoi`: the number that C reads, of any size.
* `isOn_iff_number`: a text is on if behind its blanks it begins with a number that is not zero.
* `enabled_iff_number`: so the switch is the number that C reads, for a text without other leading
  blanks than C's.
* `enabled_ne_number`: a text with another leading blank can be on, and bytes that are no text are
  off, against the number that C reads.
-/

namespace SharedSync.Config

open Utf8 (front)

/-! ### Numbers, as C reads them -/

/-- Space, tab, line feed, vertical tab, form feed and carriage return. -/
def isSpace (code : Nat) : Bool := code == 0x20 || (0x09 ≤ code && code ≤ 0x0D)

/-- The code is one of a decimal digit. -/
def isDigit (code : Nat) : Bool := 0x30 ≤ code && code ≤ 0x39

/-- The number that decimal digits make. -/
def decimal (digits : List Nat) : Nat := digits.foldl (fun n digit => 10 * n + (digit - 0x30)) 0

/-- The code is one of a sign. -/
def isSign (code : Nat) : Bool := code == 0x2B || code == 0x2D

/-- The codes without one leading sign. -/
def unsigned : List Nat → List Nat
  | [] => []
  | code :: codes => if isSign code then codes else code :: codes

/-- The number that a text begins with: one sign, if any, and the longest run of digits. -/
def leadingNumber (codes : List Nat) : Int :=
  let magnitude := decimal ((unsigned codes).takeWhile isDigit)
  if codes.head? = some 0x2D then -magnitude else magnitude

/-- The number behind the blanks of a text. -/
def atoi (codes : List Nat) : Int := leadingNumber (codes.dropWhile isSpace)

/-- Digits make zero just if each of them is zero. -/
theorem foldl_decimal_eq_zero_iff (digits : List Nat) (n : Nat) :
    digits.foldl (fun n digit => 10 * n + (digit - 0x30)) n = 0 ↔
      n = 0 ∧ ∀ digit ∈ digits, digit - 0x30 = 0 := by
  induction digits generalizing n with
  | nil => simp
  | cons digit digits ih =>
      rw [List.foldl_cons, ih, List.forall_mem_cons]
      constructor
      · rintro ⟨hn, hrest⟩
        exact ⟨by omega, by omega, hrest⟩
      · rintro ⟨rfl, hdigit, hrest⟩
        exact ⟨by omega, hrest⟩

/-- **A number is zero if its digits are.** -/
theorem leadingNumber_eq_zero_iff (codes : List Nat) :
    leadingNumber codes = 0 ↔ ∀ digit ∈ (unsigned codes).takeWhile isDigit, digit = 0x30 := by
  have hzero : leadingNumber codes = 0 ↔ decimal ((unsigned codes).takeWhile isDigit) = 0 := by
    simp only [leadingNumber]
    split <;> omega
  rw [hzero, decimal, foldl_decimal_eq_zero_iff]
  constructor
  · rintro ⟨-, h⟩ digit hmem
    have hdigit := List.mem_takeWhile_imp hmem
    have hle := h digit hmem
    simp only [isDigit, Bool.and_eq_true, decide_eq_true_eq] at hdigit
    omega
  · intro h
    refine ⟨rfl, fun digit hmem => ?_⟩
    rw [h digit hmem]

/-! ### The front decides -/

theorem lt_of_isSpace {code : Nat} (h : isSpace code = true) : code < 0x80 := by
  simp only [isSpace, Bool.or_eq_true, Bool.and_eq_true, beq_iff_eq, decide_eq_true_eq] at h
  omega

theorem lt_of_isSign {code : Nat} (h : isSign code = true) : code < 0x80 := by
  simp only [isSign, Bool.or_eq_true, beq_iff_eq] at h
  omega

theorem lt_of_isDigit {code : Nat} (h : isDigit code = true) : code < 0x80 := by
  simp only [isDigit, Bool.and_eq_true, decide_eq_true_eq] at h
  omega

/-- What ends at the first code above 127 is not changed by cutting there. -/
theorem takeWhile_front {p : Nat → Bool} (hp : ∀ code, p code = true → code < 0x80)
    (codes : List Nat) : (front codes).takeWhile p = codes.takeWhile p := by
  induction codes with
  | nil => rfl
  | cons code codes ih =>
      rw [List.takeWhile_cons]
      rcases Nat.lt_or_ge code 0x80 with ascii | wide
      · rw [Utf8.front_cons_of_lt ascii, List.takeWhile_cons, ih]
      · rw [Utf8.front_cons_of_le wide, if_neg fun h => Nat.not_lt.mpr wide (hp code h)]
        rfl

/-- The same for what is dropped. -/
theorem dropWhile_front {p : Nat → Bool} (hp : ∀ code, p code = true → code < 0x80)
    (codes : List Nat) : (front codes).dropWhile p = front (codes.dropWhile p) := by
  induction codes with
  | nil => rfl
  | cons code codes ih =>
      rw [List.dropWhile_cons]
      rcases Nat.lt_or_ge code 0x80 with ascii | wide
      · rw [Utf8.front_cons_of_lt ascii, List.dropWhile_cons, ih]
        split
        · rfl
        · rw [Utf8.front_cons_of_lt ascii]
      · rw [if_neg fun h => Nat.not_lt.mpr wide (hp code h), Utf8.front_cons_of_le wide]
        rfl

/-- Nor does the sign. -/
theorem signed_front (codes : List Nat) : unsigned (front codes) = front (unsigned codes) ∧
    ((front codes).head? = some 0x2D ↔ codes.head? = some 0x2D) := by
  rcases codes with - | ⟨code, codes⟩
  · exact ⟨rfl, Iff.rfl⟩
  · rcases Nat.lt_or_ge code 0x80 with ascii | wide
    · rw [Utf8.front_cons_of_lt ascii, unsigned, unsigned]
      refine ⟨?_, Iff.rfl⟩
      split
      · rfl
      · rw [Utf8.front_cons_of_lt ascii]
    · have hsign : unsigned (code :: codes) = code :: codes :=
        if_neg fun h => Nat.not_lt.mpr wide (lt_of_isSign h)
      rw [hsign, Utf8.front_cons_of_le wide]
      refine ⟨rfl, iff_of_false nofun ?_⟩
      rintro ⟨⟩
      omega

/-- **A number does not depend on what stands behind the first code that is not ASCII.** -/
theorem atoi_front (codes : List Nat) : atoi (front codes) = atoi codes := by
  have hnumber : ∀ codes, leadingNumber (front codes) = leadingNumber codes := by
    intro codes
    obtain ⟨hunsigned, hhead⟩ := signed_front codes
    simp only [leadingNumber, hunsigned, takeWhile_front (fun _ => lt_of_isDigit), hhead]
  rw [atoi, dropWhile_front fun _ => lt_of_isSpace, hnumber, atoi]

/-! ### What the switch reads -/

/-- Both readings know the same digits. -/
theorem isDigit_toNat (c : Char) : isDigit c.toNat = c.isDigit := by
  rw [Bool.eq_iff_iff]
  simp only [isDigit, Char.isDigit, Bool.and_eq_true, decide_eq_true_eq, ge_iff_le,
    UInt32.le_iff_toNat_le]
  rfl

/-- Both readings drop the same signs. -/
theorem map_dropSign (cs : List Char) :
    (dropSign cs).map Char.toNat = unsigned (cs.map Char.toNat) := by
  unfold dropSign
  split
  · rfl
  · rfl
  · next hplus hminus =>
      rcases cs with - | ⟨c, cs⟩
      · rfl
      · have hsign : ¬ isSign c.toNat = true := by
          simp only [isSign, Bool.or_eq_true, beq_iff_eq]
          rintro (h | h)
          · exact hplus cs (congrArg (· :: cs) (Char.toNat_inj.mp (h : c.toNat = '+'.toNat)))
          · exact hminus cs (congrArg (· :: cs) (Char.toNat_inj.mp (h : c.toNat = '-'.toNat)))
        rw [List.map_cons, unsigned, if_neg hsign]

/-- **A text is on if behind its blanks it begins with a number that is not zero.** -/
theorem isOn_iff_number {value : Bytes} {text : String} (h : Utf8.decode? value = some text) :
    isOn value = true ↔
      leadingNumber ((text.toList.dropWhile Text.isBlank).map Char.toNat) ≠ 0 := by
  have hdigit : isDigit ∘ Char.toNat = Char.isDigit := funext isDigit_toNat
  have hzero : ∀ c : Char, c.toNat = 0x30 ↔ c = '0' := fun c => Char.toNat_inj (d := '0')
  simp only [isOn, h]
  rw [ne_eq, leadingNumber_eq_zero_iff, ← map_dropSign, List.takeWhile_map, hdigit]
  simp only [List.any_eq_true, List.mem_map, forall_exists_index, and_imp, forall_apply_eq_imp_iff₂,
    hzero, decide_not, Bool.not_eq_true', decide_eq_false_iff_not, not_forall, exists_prop]

theorem isOn_of_not_text {value : Bytes} (h : Utf8.decode? value = none) : isOn value = false := by
  simp only [isOn, h]

/-! ### Blanks -/

/-- The text has no other leading blank than those that C skips. -/
def HasPlainBlanks (cs : List Char) : Prop :=
  ∀ c ∈ cs.takeWhile Text.isBlank, isSpace c.toNat = true

/-- Every blank of the documented reading is one of the library's. -/
theorem isBlank_of_isSpace {c : Char} (h : isSpace c.toNat = true) : Text.isBlank c = true := by
  simp only [isSpace, Bool.or_eq_true, Bool.and_eq_true, beq_iff_eq, decide_eq_true_eq] at h
  simp only [Text.isBlank, Text.blankRanges, List.any_cons, Bool.or_eq_true, Bool.and_eq_true,
    decide_eq_true_eq]
  omega

/-- A blank begins no number. -/
theorem leadingNumber_of_blank {c : Char} (h : Text.isBlank c = true) (codes : List Nat) :
    leadingNumber (c.toNat :: codes) = 0 := by
  simp only [Text.isBlank, Text.blankRanges, List.any_cons, List.any_nil, Bool.or_false,
    Bool.or_eq_true, Bool.and_eq_true, decide_eq_true_eq] at h
  have hsign : ¬ isSign c.toNat = true := by
    simp only [isSign, Bool.or_eq_true, beq_iff_eq]
    omega
  have hdigit : ¬ isDigit c.toNat = true := by
    simp only [isDigit, Bool.and_eq_true, decide_eq_true_eq]
    omega
  rw [leadingNumber_eq_zero_iff, unsigned, if_neg hsign, List.takeWhile_cons_of_neg hdigit]
  exact nofun

/-- Both readings skip the same blanks, if there are no others than C's. -/
theorem dropWhile_of_plain {cs : List Char} (h : HasPlainBlanks cs) :
    (cs.dropWhile Text.isBlank).map Char.toNat = (cs.map Char.toNat).dropWhile isSpace := by
  induction cs with
  | nil => rfl
  | cons c cs ih =>
      by_cases hblank : Text.isBlank c = true
      · rw [HasPlainBlanks, List.takeWhile_cons_of_pos hblank, List.forall_mem_cons] at h
        rw [List.dropWhile_cons_of_pos hblank, List.map_cons, List.dropWhile_cons_of_pos h.1, ih h.2]
      · rw [List.dropWhile_cons_of_neg hblank, List.map_cons,
          List.dropWhile_cons_of_neg fun hspace => hblank (isBlank_of_isSpace hspace)]

/-- Otherwise C stops at a blank. -/
theorem leadingNumber_of_not_plain {cs : List Char} (h : ¬ HasPlainBlanks cs) :
    leadingNumber ((cs.map Char.toNat).dropWhile isSpace) = 0 := by
  induction cs with
  | nil => exact absurd nofun h
  | cons c cs ih =>
      by_cases hspace : isSpace c.toNat = true
      · rw [HasPlainBlanks, List.takeWhile_cons_of_pos (isBlank_of_isSpace hspace),
          List.forall_mem_cons] at h
        rw [List.map_cons, List.dropWhile_cons_of_pos hspace]
        exact ih fun plain => h ⟨hspace, plain⟩
      · rw [List.map_cons, List.dropWhile_cons_of_neg hspace]
        refine leadingNumber_of_blank (Decidable.not_not.mp fun hblank => h ?_) _
        rw [HasPlainBlanks, List.takeWhile_cons_of_neg hblank]
        exact nofun

/-! ### The switch -/

/-- **The switch is the number that C reads**, for a text whose leading blanks are C's, however long
the number.  A text with another leading blank is no number to C, and here it is the number behind
its blanks.  Without a value, or with one that is no text, the switch is off. -/
theorem enabled_iff_number (lookup : String → Option Bytes) :
    (lookup enableVariable = none → (ofEnvironment lookup).enabled = false) ∧
    ∀ value, lookup enableVariable = some value →
      (Utf8.decode? value = none → (ofEnvironment lookup).enabled = false) ∧
      ∀ text, Utf8.decode? value = some text →
        (HasPlainBlanks text.toList →
          ((ofEnvironment lookup).enabled = true ↔ atoi (value.map UInt8.toNat) ≠ 0)) ∧
        (¬ HasPlainBlanks text.toList → atoi (value.map UInt8.toNat) = 0 ∧
          ((ofEnvironment lookup).enabled = true ↔
            leadingNumber ((text.toList.dropWhile Text.isBlank).map Char.toNat) ≠ 0)) := by
  refine ⟨fun h => by rw [ofEnvironment, h]; rfl, fun value hvalue => ?_⟩
  have henabled : (ofEnvironment lookup).enabled = isOn value := by
    rw [ofEnvironment, hvalue]
    rfl
  rw [henabled]
  refine ⟨isOn_of_not_text, fun text htext => ?_⟩
  have hatoi : atoi (value.map UInt8.toNat) =
      leadingNumber ((text.toList.map Char.toNat).dropWhile isSpace) := by
    rw [← atoi_front, Utf8.front_eq htext, atoi_front, atoi]
  rw [hatoi, isOn_iff_number htext]
  refine ⟨fun plain => ?_, fun other => ⟨leadingNumber_of_not_plain other, Iff.rfl⟩⟩
  rw [dropWhile_of_plain plain]

/-- An environment with the switch alone. -/
def switched (value : Bytes) (name : String) : Option Bytes :=
  if name = enableVariable then some value else none

/-- Two tabs of both kinds, a sign, and a number with a leading zero. -/
theorem enabled_iff_number_small :
    (ofEnvironment (switched [0x09, 0x0B, 0x2D, 0x30, 0x37, 0x78])).enabled = true := by
  have htext : Utf8.decode? [0x09, 0x0B, 0x2D, 0x30, 0x37, 0x78] = some "\t\x0B-07x" := by cbv
  have hplain : HasPlainBlanks "\t\x0B-07x".toList := by
    have hblanks : "\t\x0B-07x".toList.takeWhile Text.isBlank = ['\t', '\x0B'] := by cbv
    rw [HasPlainBlanks, hblanks, List.forall_mem_cons, List.forall_mem_singleton]
    exact ⟨rfl, rfl⟩
  have hlookup : switched [0x09, 0x0B, 0x2D, 0x30, 0x37, 0x78] enableVariable = some _ := if_pos rfl
  have hnumber : atoi ([0x09, 0x0B, 0x2D, 0x30, 0x37, 0x78].map UInt8.toNat) = -7 := by cbv
  refine ((((enabled_iff_number _).2 _ hlookup).2 _ htext).1 hplain).mpr ?_
  rw [hnumber]
  decide

/-- **A non-breaking space in front of a 1 switches on**, though C reads 0; and a byte that is no
text behind a 1 switches off, though C reads 1. -/
theorem enabled_ne_number :
    ((ofEnvironment (switched [0xC2, 0xA0, 0x31])).enabled = true ∧
      atoi ([0xC2, 0xA0, 0x31].map UInt8.toNat) = 0) ∧
    ((ofEnvironment (switched [0x31, 0xFF])).enabled = false ∧
      atoi ([0x31, 0xFF].map UInt8.toNat) = 1) := by
  refine ⟨⟨?_, ?_⟩, ?_, ?_⟩ <;> cbv

end SharedSync.Config
