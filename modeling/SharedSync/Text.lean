import SharedSync.Words

/-!
# Text — encodings, and how numbers and strings are written

Texts arrive as bytes in UTF-8 or as units of UTF-16, and leave in messages and names.
-/

/-! ### UTF-8

Environment values and paths are byte strings that are usually, but not always, UTF-8.  One
scan serves both readings: it cuts the bytes into characters and ill-formed pieces, where a piece
is the longest start of some character's encoding that stands there, or a single byte.
`decode?` asks for a text without such pieces; `decodeLossy` shows each as U+FFFD. -/

namespace SharedSync.Utf8

/-- The bytes of a text. -/
def encode (s : String) : Bytes := s.toUTF8.toList

/-- What a leading byte announces: the number of continuation bytes, the range of the first of
them, and the leading byte's share of the code point. -/
structure Lead where
  count : Nat
  least : UInt8 := 0x80
  most : UInt8 := 0xBF
  bits : Nat

/-- The ranges that admit no overlong form, no surrogate and nothing above U+10FFFF. -/
def lead? (b : UInt8) : Option Lead :=
  if b < 0x80 then some { count := 0, bits := b.toNat }
  else if b < 0xC2 then none
  else if b < 0xE0 then some { count := 1, bits := b.toNat - 0xC0 }
  else if b = 0xE0 then some { count := 2, least := 0xA0, bits := 0 }
  else if b = 0xED then some { count := 2, most := 0x9F, bits := 0xD }
  else if b < 0xF0 then some { count := 2, bits := b.toNat - 0xE0 }
  else if b = 0xF0 then some { count := 3, least := 0x90, bits := 0 }
  else if b < 0xF4 then some { count := 3, bits := b.toNat - 0xF0 }
  else if b = 0xF4 then some { count := 3, most := 0x8F, bits := 4 }
  else none

/-- Reads `count` continuation bytes, the first between `least` and `most`: the code point, or
nothing if they end early; and the bytes behind those that fit. -/
def follow (count : Nat) (least most : UInt8) (point : Nat) (bs : Bytes) : Option Nat × Bytes :=
  match count, bs with
  | 0, bs => (some point, bs)
  | _ + 1, [] => (none, [])
  | n + 1, b :: rest =>
      if least ≤ b && b ≤ most then follow n 0x80 0xBF (point * 64 + (b.toNat - 0x80)) rest
      else (none, b :: rest)

/-- Continuation bytes come off the front, so `scan` ends. -/
theorem length_follow (count : Nat) (least most : UInt8) (point : Nat) (bs : Bytes) :
    (follow count least most point bs).2.length ≤ bs.length := by
  induction count generalizing least most point bs with
  | zero => simp [follow]
  | succ n ih =>
      cases bs with
      | nil => simp [follow]
      | cons b rest =>
          rw [follow]
          split
          · exact Nat.le_succ_of_le (ih _ _ _ rest)
          · exact Nat.le_refl _

/-- The characters of `bs`, and nothing for each ill-formed piece. -/
def scan : Bytes → List (Option Char)
  | [] => []
  | b :: rest =>
      match lead? b with
      | none => none :: scan rest
      | some l =>
          (follow l.count l.least l.most l.bits rest).1.map Char.ofNat ::
            scan (follow l.count l.least l.most l.bits rest).2
termination_by bs => bs.length
decreasing_by
  · simp
  · exact Nat.lt_succ_of_le (length_follow ..)

/-- The text that `bs` encode, if they are well-formed. -/
def decode? (bs : Bytes) : Option String := ((scan bs).mapM id).map String.ofList

/-- The text of `bs` with U+FFFD for each ill-formed piece. -/
def decodeLossy (bs : Bytes) : String :=
  String.ofList ((scan bs).map (·.getD (Char.ofNat 0xFFFD)))

end SharedSync.Utf8

/-! ### UTF-16

Object names travel as UTF-16, least significant byte of each unit first.  A character below
U+10000 is one unit; a character above is a high surrogate (D800–DBFF) followed by a low one
(DC00–DFFF).  `decode?` reads back exactly the well-formed sequences: every high surrogate is
followed by a low one, and no low one stands alone. -/

namespace SharedSync.Utf16

/-- The units of one character. -/
def unitsOf (c : Char) : List UInt16 :=
  if c.toNat < 0x10000 then [UInt16.ofNat c.toNat]
  else
    let v := c.toNat - 0x10000
    [UInt16.ofNat (0xD800 + v / 0x400), UInt16.ofNat (0xDC00 + v % 0x400)]

/-- The units of a text. -/
def encode (s : String) : List UInt16 := s.toList.flatMap unitsOf

/-- The first unit of a surrogate pair. -/
def isHigh (u : UInt16) : Bool := 0xD800 ≤ u && u < 0xDC00

/-- The second unit of a surrogate pair. -/
def isLow (u : UInt16) : Bool := 0xDC00 ≤ u && u < 0xE000

/-- The character above U+FFFF that a surrogate pair stands for. -/
def combine (high low : UInt16) : Char :=
  Char.ofNat (0x10000 + (high.toNat - 0xD800) * 0x400 + (low.toNat - 0xDC00))

/-- The characters of `units`, behind those of `before`, which are in reverse. -/
def decodeOnto : (before : List Char) → (units : List UInt16) → Option (List Char)
  | before, [] => some before.reverse
  | before, u :: rest =>
      if isLow u then none
      else if isHigh u then
        match rest with
        | [] => none
        | v :: rest => if isLow v then decodeOnto (combine u v :: before) rest else none
      else decodeOnto (Char.ofNat u.toNat :: before) rest

/-- The text that `units` encode, if they are well-formed. -/
def decode? (units : List UInt16) : Option String := (decodeOnto [] units).map String.ofList

/-- The bytes of a sequence of units. -/
def toBytes (units : List UInt16) : Bytes := units.flatMap Words.le16

/-- The units of `bs` behind those of `before`, which are in reverse; an odd last byte is left
out. -/
def ofBytesOnto : (before : List UInt16) → Bytes → List UInt16
  | before, lo :: hi :: rest =>
      ofBytesOnto (UInt16.ofNat (Words.ofLittleEndian [lo, hi]) :: before) rest
  | before, _ => before.reverse

/-- The units whose bytes are `bs`. -/
def ofBytes (bs : Bytes) : List UInt16 := ofBytesOnto [] bs

end SharedSync.Utf16

/-! ### Hexadecimal numbers

Lower-case digits without leading zeros (`hex`), and the same with the mark `0x` and enough
leading zeros for a least number of digits (`marked`). -/

namespace SharedSync.Text

/-- A number in lower-case hexadecimal digits, without leading zeros. -/
def hex (n : Nat) : String := String.ofList (Nat.toDigits 16 n)

/-- At least `width` digits behind `0x`. -/
def marked (width n : Nat) : String :=
  let digits := Nat.toDigits 16 n
  "0x" ++ String.ofList (List.replicate (width - digits.length) '0' ++ digits)

example : marked 4 0x1c = "0x001c" := by cbv

/-! ### Quoted strings

A string between quotation marks on one line: the mark itself and the backslash are preceded by
a backslash, and a tab, a line feed, a carriage return and a NUL are written by their letters. -/

/-- A character as it stands between the marks. -/
def escaped (c : Char) : List Char :=
  if c = '"' || c = '\\' then ['\\', c]
  else if c = '\t' then ['\\', 't']
  else if c = '\n' then ['\\', 'n']
  else if c = '\r' then ['\\', 'r']
  else if c = '\x00' then ['\\', '0']
  else [c]

/-- A string between the marks. -/
def quoted (s : String) : String := "\"" ++ String.ofList (s.toList.flatMap escaped) ++ "\""

/-! ### Blank characters

The characters with the Unicode property `White_Space`.  Leading blanks of the switch variable
do not count (`Config`). -/

/-- The code points with the property `White_Space`, as inclusive ranges in increasing order. -/
def blankRanges : List (Nat × Nat) :=
  [(0x09, 0x0D), (0x20, 0x20), (0x85, 0x85), (0xA0, 0xA0), (0x1680, 0x1680), (0x2000, 0x200A),
   (0x2028, 0x2029), (0x202F, 0x202F), (0x205F, 0x205F), (0x3000, 0x3000)]

/-- The character counts as blank. -/
def isBlank (c : Char) : Bool :=
  blankRanges.any fun (first, last) => first ≤ c.toNat && c.toNat ≤ last

example : (blankRanges.map fun (first, last) => last + 1 - first).sum = 25 := by decide

end SharedSync.Text
