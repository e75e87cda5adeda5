/-!
# Words — integers as bytes, and payloads read from front to back

The two byte orders with their writers and readers, and the cursor that takes a payload apart.
-/

namespace SharedSync

/-! ### Integers as bytes

Every integer that leaves the process is written as a fixed number of bytes: frame headers most
significant byte first, payloads and shared state least significant byte first.  Both orders are
one definition, `littleEndian width n`, and its reversal; the typed writers (`be16` … `leInt32`)
and the strict readers (`readBe16?` … `readLeInt32?`) fix the width.

* `ofLittleEndian_littleEndian`: reading back what was written gives the number modulo
  `values width`.
* `littleEndian_ofLittleEndian`: writing back what was read gives the bytes.

A strict reader answers only a slice of exactly its width, so a truncated buffer is a missing
value and never a smaller number. -/

/-- A string of bytes. -/
abbrev Bytes := List UInt8

namespace Words

/-- The number of values that `width` bytes can have. -/
def values : (width : Nat) → Nat
  | 0 => 1
  | w + 1 => 256 * values w

/-- The `width` low bytes of `n`, least significant first. -/
def littleEndian : (width n : Nat) → Bytes
  | 0, _ => []
  | w + 1, n => UInt8.ofNat n :: littleEndian w (n / 256)

/-- The number whose base-256 digits are `bs`, least significant first. -/
def ofLittleEndian : Bytes → Nat
  | [] => 0
  | b :: bs => b.toNat + 256 * ofLittleEndian bs

/-- The `width` low bytes of `n`, most significant first. -/
def bigEndian (width n : Nat) : Bytes := (littleEndian width n).reverse

/-- The number whose base-256 digits are `bs`, most significant first. -/
def ofBigEndian (bs : Bytes) : Nat := ofLittleEndian bs.reverse

@[simp] theorem length_littleEndian (w n : Nat) : (littleEndian w n).length = w := by
  induction w generalizing n with
  | zero => rfl
  | succ w ih => simp [littleEndian, ih]

@[simp] theorem length_bigEndian (w n : Nat) : (bigEndian w n).length = w := by
  simp [bigEndian]

/-- Bytes make a number below the number of values of that many bytes. -/
theorem ofLittleEndian_lt (bs : Bytes) : ofLittleEndian bs < values bs.length := by
  induction bs with
  | nil => exact Nat.one_pos
  | cons b bs ih =>
      have hb := b.toNat_lt
      simp only [ofLittleEndian, List.length_cons, values]
      omega

/-- Reading what was written gives the number, up to the width. -/
theorem ofLittleEndian_littleEndian (w n : Nat) :
    ofLittleEndian (littleEndian w n) = n % values w := by
  induction w generalizing n with
  | zero => exact (Nat.mod_one n).symm
  | succ w ih =>
      simp only [littleEndian, ofLittleEndian, ih, UInt8.toNat_ofNat', Nat.reducePow]
      rw [values, Nat.mod_mul]

/-- Writing what was read gives the bytes. -/
theorem littleEndian_ofLittleEndian (bs : Bytes) :
    littleEndian bs.length (ofLittleEndian bs) = bs := by
  induction bs with
  | nil => rfl
  | cons b bs ih =>
      have hb := b.toNat_lt
      have hq : (b.toNat + 256 * ofLittleEndian bs) / 256 = ofLittleEndian bs := by omega
      have hr : (b.toNat + 256 * ofLittleEndian bs) % 256 = b.toNat := by omega
      have ho : UInt8.ofNat (b.toNat + 256 * ofLittleEndian bs) = b := by
        rw [← UInt8.toNat_inj, UInt8.toNat_ofNat']
        exact hr
      rw [List.length_cons, littleEndian, ofLittleEndian, hq, ih, ho]

/-- Reading what was written gives the number, up to the width. -/
theorem ofBigEndian_bigEndian (w n : Nat) : ofBigEndian (bigEndian w n) = n % values w := by
  simp [ofBigEndian, bigEndian, ofLittleEndian_littleEndian]

/-- Writing what was read gives the bytes. -/
theorem bigEndian_ofBigEndian (bs : Bytes) : bigEndian bs.length (ofBigEndian bs) = bs := by
  have h := littleEndian_ofLittleEndian bs.reverse
  rw [List.length_reverse] at h
  rw [bigEndian, ofBigEndian, h, List.reverse_reverse]

/-! ### Writers -/

/-- A 16-bit number as a frame header carries it. -/
def be16 (v : UInt16) : Bytes := bigEndian 2 v.toNat

/-- A 32-bit number as a frame header carries it. -/
def be32 (v : UInt32) : Bytes := bigEndian 4 v.toNat

/-- A 64-bit number as a frame header carries it. -/
def be64 (v : UInt64) : Bytes := bigEndian 8 v.toNat

/-- One UTF-16 unit of a name. -/
def le16 (v : UInt16) : Bytes := littleEndian 2 v.toNat

/-- A 32-bit number of a payload or of shared state. -/
def le32 (v : UInt32) : Bytes := littleEndian 4 v.toNat

/-- Two's complement, least significant byte first. -/
def leInt32 (v : Int32) : Bytes := le32 v.toUInt32

@[simp] theorem length_be16 (v : UInt16) : (be16 v).length = 2 := length_bigEndian _ _

@[simp] theorem length_be32 (v : UInt32) : (be32 v).length = 4 := length_bigEndian _ _

@[simp] theorem length_be64 (v : UInt64) : (be64 v).length = 8 := length_bigEndian _ _

@[simp] theorem length_le16 (v : UInt16) : (le16 v).length = 2 := length_littleEndian _ _

@[simp] theorem length_le32 (v : UInt32) : (le32 v).length = 4 := length_littleEndian _ _

@[simp] theorem length_leInt32 (v : Int32) : (leInt32 v).length = 4 := length_littleEndian _ _

/-! ### Strict readers -/

/-- The number that two bytes are, most significant first. -/
def readBe16? (bs : Bytes) : Option UInt16 :=
  if bs.length = 2 then some (UInt16.ofNat (ofBigEndian bs)) else none

/-- The number that four bytes are, most significant first. -/
def readBe32? (bs : Bytes) : Option UInt32 :=
  if bs.length = 4 then some (UInt32.ofNat (ofBigEndian bs)) else none

/-- The number that eight bytes are, most significant first. -/
def readBe64? (bs : Bytes) : Option UInt64 :=
  if bs.length = 8 then some (UInt64.ofNat (ofBigEndian bs)) else none

/-- The number that four bytes are, least significant first. -/
def readLe32? (bs : Bytes) : Option UInt32 :=
  if bs.length = 4 then some (UInt32.ofNat (ofLittleEndian bs)) else none

/-- The same four bytes in two's complement. -/
def readLeInt32? (bs : Bytes) : Option Int32 := (readLe32? bs).map UInt32.toInt32

theorem readBe16?_be16 (v : UInt16) : readBe16? (be16 v) = some v := by
  have h : v.toNat % values 2 = v.toNat := Nat.mod_eq_of_lt v.toNat_lt
  rw [readBe16?, if_pos (length_be16 v), be16, ofBigEndian_bigEndian, h, UInt16.ofNat_toNat]

theorem readBe32?_be32 (v : UInt32) : readBe32? (be32 v) = some v := by
  have h : v.toNat % values 4 = v.toNat := Nat.mod_eq_of_lt v.toNat_lt
  rw [readBe32?, if_pos (length_be32 v), be32, ofBigEndian_bigEndian, h, UInt32.ofNat_toNat]

theorem readBe64?_be64 (v : UInt64) : readBe64? (be64 v) = some v := by
  have h : v.toNat % values 8 = v.toNat := Nat.mod_eq_of_lt v.toNat_lt
  rw [readBe64?, if_pos (length_be64 v), be64, ofBigEndian_bigEndian, h, UInt64.ofNat_toNat]

theorem readLe32?_le32 (v : UInt32) : readLe32? (le32 v) = some v := by
  have h : v.toNat % values 4 = v.toNat := Nat.mod_eq_of_lt v.toNat_lt
  rw [readLe32?, if_pos (length_le32 v), le32, ofLittleEndian_littleEndian, h,
    UInt32.ofNat_toNat]

theorem readLeInt32?_leInt32 (v : Int32) : readLeInt32? (leInt32 v) = some v := by
  rw [readLeInt32?, leInt32, readLe32?_le32, Option.map_some, Int32.toInt32_toUInt32]

end Words

/-! ### Cursors

A `Cursor` is a buffer and a position inside it.  `take? n` gives the next `n` bytes and the
cursor behind them, or nothing if fewer remain; `word?` and `signed?` take four bytes as a
number.  `attempt` makes a read total: it keeps the cursor where it was when the read fails, so
a shorter read may still succeed.

* `take?_eq_none_iff`: a read fails exactly when it asks for more than remains. -/

/-- A buffer and how much of its front was taken; the position never passes the end. -/
structure Cursor where
  buffer : Bytes
  position : Nat := 0
  position_le : position ≤ buffer.length := by simp

namespace Cursor

/-- Nothing is taken yet. -/
def ofBytes (buffer : Bytes) : Cursor := { buffer }

/-- The number of bytes not yet taken. -/
def remaining (c : Cursor) : Nat := c.buffer.length - c.position

/-- The bytes already taken. -/
def taken (c : Cursor) : Bytes := c.buffer.take c.position

/-- The next `n` bytes and the cursor behind them, if that many remain. -/
def take? (n : Nat) (c : Cursor) : Option (Bytes × Cursor) :=
  if h : c.position + n ≤ c.buffer.length then
    some ((c.buffer.drop c.position).take n, ⟨c.buffer, c.position + n, h⟩)
  else none

/-- The next four bytes as an unsigned number. -/
def word? (c : Cursor) : Option (UInt32 × Cursor) :=
  match c.take? 4 with
  | none => none
  | some (bs, rest) => (Words.readLe32? bs).map (·, rest)

/-- The next four bytes as a signed number. -/
def signed? (c : Cursor) : Option (Int32 × Cursor) :=
  match c.take? 4 with
  | none => none
  | some (bs, rest) => (Words.readLeInt32? bs).map (·, rest)

/-- The result of a read, and where it leaves the cursor. -/
def attempt (read : Cursor → Option (α × Cursor)) (c : Cursor) : Option α × Cursor :=
  match read c with
  | none => (none, c)
  | some (a, rest) => (some a, rest)

/-- A read fails exactly when it asks for more than remains. -/
theorem take?_eq_none_iff {n : Nat} {c : Cursor} : c.take? n = none ↔ c.remaining < n := by
  have h := c.position_le
  simp only [take?, remaining, dite_eq_right_iff, reduceCtorEq, imp_false]
  omega

end Cursor

end SharedSync
