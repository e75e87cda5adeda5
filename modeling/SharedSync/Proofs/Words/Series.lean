import SharedSync.Proofs.Words.Reading

/-!
# Words — a series of reads

A cursor is asked for bytes and numbers in any order.  A read takes the bytes it needs off the front
of what remains, or fails and takes none; so what a series of reads took is the front of the buffer,
whichever of them failed.

* `Gives`: what the bytes that a read takes stand for, digit by digit.
* `answering_answer`: the two ways in which a read ends.
* `exists_consumed`: a series of reads takes the front of what remained.
* `inWords`: none of this changes if positions are machine words: no difference underflows, and a sum
  that does not fit a word belongs to a read that fails.
* `reads_consume_front`: all of it, for any series of reads of any buffer.
-/

namespace SharedSync

namespace Words

/-- The sum of two words, if it fits a word. -/
def addChecked (a b : UInt64) : Option UInt64 := if a + b < a then none else some (a + b)

/-- A checked sum is the sum, unless it does not fit the word. -/
theorem addChecked_eq (a b : UInt64) :
    addChecked a b = if a.toNat + b.toNat < UInt64.size then some (a + b) else none := by
  have ha := a.toNat_lt
  have hb := b.toNat_lt
  have hsize : UInt64.size = 18446744073709551616 := rfl
  have hsum : a + b < a ↔ ¬ a.toNat + b.toNat < UInt64.size := by
    rw [UInt64.lt_iff_toNat_lt, UInt64.toNat_add]
    omega
  rw [addChecked]
  by_cases hfits : a.toNat + b.toNat < UInt64.size
  · rw [if_neg fun hlt => hsum.mp hlt hfits, if_pos hfits]
  · rw [if_pos (hsum.mpr hfits), if_neg hfits]

/-- A sum that fits is exact. -/
theorem toNat_of_addChecked {a b sum : UInt64} (h : addChecked a b = some sum) :
    sum.toNat = a.toNat + b.toNat := by
  rw [addChecked_eq, Option.ite_none_right_eq_some] at h
  obtain ⟨hfits, hsum⟩ := h
  rw [← Option.some.inj hsum, UInt64.toNat_add]
  exact Nat.mod_eq_of_lt hfits

theorem toNat_ofNat_of_le {n m : Nat} (h : n ≤ m) (hm : m < UInt64.size) : (UInt64.ofNat n).toNat = n :=
  UInt64.toNat_ofNat_of_lt' (Nat.lt_of_le_of_lt h hm)

/-! ### Four bytes as a number -/

/-- Four bytes make a number, the least significant first. -/
theorem toNat_of_readLe32? {b₀ b₁ b₂ b₃ : UInt8} {v : UInt32}
    (h : readLe32? [b₀, b₁, b₂, b₃] = some v) :
    v.toNat = b₀.toNat + 256 * (b₁.toNat + 256 * (b₂.toNat + 256 * b₃.toNat)) := by
  have hlt := ofLittleEndian_lt [b₀, b₁, b₂, b₃]
  have hv : UInt32.ofNat (ofLittleEndian [b₀, b₁, b₂, b₃]) = v := Option.some.inj h
  rw [← hv, UInt32.toNat_ofNat_of_lt' hlt]
  simp only [ofLittleEndian]
  omega

theorem toInt_toInt32 (w : UInt32) : w.toInt32.toInt = Int.bmod w.toNat 4294967296 := by
  rw [← Int32.toInt_toBitVec, UInt32.toBitVec_toInt32, BitVec.toInt_eq_toNat_bmod]
  rfl

theorem toInt_toInt8 (b : UInt8) : b.toInt8.toInt = Int.bmod b.toNat 256 := by
  rw [← Int8.toInt_toBitVec, UInt8.toBitVec_toInt8, BitVec.toInt_eq_toNat_bmod]
  rfl

/-- In two's complement the highest byte has the sign. -/
theorem toInt_of_readLeInt32? {b₀ b₁ b₂ b₃ : UInt8} {v : Int32}
    (h : readLeInt32? [b₀, b₁, b₂, b₃] = some v) :
    v.toInt = b₀.toNat + 256 * (b₁.toNat + 256 * (b₂.toNat + 256 * b₃.toInt8.toInt)) := by
  obtain ⟨w, hw, rfl⟩ := Option.map_eq_some_iff.mp h
  have hnat := toNat_of_readLe32? hw
  have h₀ := b₀.toNat_lt
  have h₁ := b₁.toNat_lt
  have h₂ := b₂.toNat_lt
  have h₃ := b₃.toNat_lt
  rw [toInt_toInt32, toInt_toInt8, Int.bmod_def, Int.bmod_def]
  omega

end Words

namespace Cursor

/-! ### One read -/

/-- A read of a cursor. -/
inductive Read where
  | take (count : Nat)
  | word
  | signed
deriving DecidableEq

/-- What a read gives. -/
inductive Value where
  | bytes (bs : Bytes)
  | word (v : UInt32)
  | signed (v : Int32)
deriving DecidableEq

/-- The number of bytes that a read takes. -/
def Read.need : Read → Nat
  | take count => count
  | word | signed => 4

/-- What a read gives, if it succeeds, and where it leaves the cursor. -/
def answer (c : Cursor) : Read → Option Value × Cursor
  | .take count => (c.attempt (take? count)).map (Option.map .bytes) id
  | .word => (c.attempt word?).map (Option.map .word) id
  | .signed => (c.attempt signed?).map (Option.map .signed) id

/-- What the bytes that a read takes stand for.  The least significant byte comes first. -/
inductive Gives : Read → Bytes → Value → Prop where
  | take (bs : Bytes) : Gives (.take bs.length) bs (.bytes bs)
  | word {b₀ b₁ b₂ b₃ : UInt8} {v : UInt32}
      (h : v.toNat = b₀.toNat + 256 * (b₁.toNat + 256 * (b₂.toNat + 256 * b₃.toNat))) :
      Gives .word [b₀, b₁, b₂, b₃] (.word v)
  | signed {b₀ b₁ b₂ b₃ : UInt8} {v : Int32}
      (h : v.toInt = b₀.toNat + 256 * (b₁.toNat + 256 * (b₂.toNat + 256 * b₃.toInt8.toInt))) :
      Gives .signed [b₀, b₁, b₂, b₃] (.signed v)

/-- The two ways in which a read can end. -/
inductive Answering (c : Cursor) (read : Read) : Option Value → Cursor → Prop where
  | short (h : c.remaining < read.need) : Answering c read none c
  | taken {front value c'} (buffer : c'.buffer = c.buffer) (h : c.rest = front ++ c'.rest)
      (need : front.length = read.need) (gives : Gives read front value) :
      Answering c read (some value) c'

theorem attempt_of_none {α : Type} {c : Cursor} {read : Cursor → Option (α × Cursor)}
    (h : read c = none) : c.attempt read = (none, c) := by rw [attempt, h]

theorem attempt_of_some {α : Type} {c c' : Cursor} {read : Cursor → Option (α × Cursor)} {a : α}
    (h : read c = some (a, c')) : c.attempt read = (some a, c') := by rw [attempt, h]

theorem buffer_of_take? {c c' : Cursor} {n : Nat} {bs : Bytes} (h : c.take? n = some (bs, c')) :
    c'.buffer = c.buffer := by
  unfold take? at h
  split at h <;> cases h
  rfl

theorem exists_four {bs : Bytes} (h : bs.length = 4) : ∃ b₀ b₁ b₂ b₃, bs = [b₀, b₁, b₂, b₃] := by
  match bs, h with
  | [b₀, b₁, b₂, b₃], _ => exact ⟨b₀, b₁, b₂, b₃, rfl⟩

/-- **A read takes the bytes it needs off the front of what remains, or fails and takes none.** -/
theorem answering_answer (c : Cursor) (read : Read) :
    Answering c read (c.answer read).1 (c.answer read).2 := by
  -- all three reads are one take, and what the bytes taken are read as
  cases ht : c.take? read.need with
  | none =>
      have hshort := take?_eq_none_iff.mp ht
      cases read with
      | take count =>
          rw [answer, attempt_of_none (show c.take? count = none from ht)]
          exact .short hshort
      | word =>
          rw [answer, attempt_of_none (by rw [word?, show c.take? 4 = none from ht])]
          exact .short hshort
      | signed =>
          rw [answer, attempt_of_none (by rw [signed?, show c.take? 4 = none from ht])]
          exact .short hshort
  | some taken =>
      obtain ⟨front, c'⟩ := taken
      have hbuffer := buffer_of_take? ht
      obtain ⟨hrest, hneed⟩ := rest_of_take? ht
      cases read with
      | take count =>
          obtain rfl : front.length = count := hneed
          rw [answer, attempt_of_some (show c.take? front.length = _ from ht)]
          exact .taken hbuffer hrest rfl (.take front)
      | word =>
          obtain ⟨b₀, b₁, b₂, b₃, rfl⟩ := exists_four hneed
          obtain ⟨v, hv⟩ : ∃ v, Words.readLe32? [b₀, b₁, b₂, b₃] = some v := ⟨_, rfl⟩
          have hword : c.word? = some (v, c') := by
            simp only [word?, show c.take? 4 = _ from ht, hv, Option.map_some]
          rw [answer, attempt_of_some hword]
          exact .taken hbuffer hrest rfl (.word (Words.toNat_of_readLe32? hv))
      | signed =>
          obtain ⟨b₀, b₁, b₂, b₃, rfl⟩ := exists_four hneed
          obtain ⟨v, hv⟩ : ∃ v, Words.readLeInt32? [b₀, b₁, b₂, b₃] = some v := ⟨_, rfl⟩
          have hsigned : c.signed? = some (v, c') := by
            simp only [signed?, show c.take? 4 = _ from ht, hv, Option.map_some]
          rw [answer, attempt_of_some hsigned]
          exact .taken hbuffer hrest rfl (.signed (Words.toInt_of_readLeInt32? hv))

namespace Answering

variable {c c' : Cursor} {read : Read} {value : Option Value} {a : Value}

/-- A read succeeds just when it needs no more than remains. -/
theorem isSome_iff (h : Answering c read value c') : value.isSome ↔ read.need ≤ c.remaining := by
  cases h with
  | short h => exact iff_of_false nofun (Nat.not_le.mpr h)
  | taken _ h need =>
      refine iff_of_true rfl ?_
      rw [remaining_eq, h, List.length_append, need]
      exact Nat.le_add_right _ _

theorem eq_of_none (h : Answering c read none c') : c' = c := by
  cases h
  rfl

theorem buffer_eq (h : Answering c read value c') : c'.buffer = c.buffer := by
  cases h with
  | short => rfl
  | taken buffer => exact buffer

/-- A read that succeeds takes what comes next in the buffer. -/
theorem next (h : Answering c read (some a) c') : ∃ front, Gives read front a ∧
    c.buffer.drop c.position = front ++ c.buffer.drop c'.position ∧
    c'.position = c.position + read.need := by
  cases h with
  | @taken front _ _ buffer h need gives =>
      have hlength := congrArg List.length h
      rw [List.length_append, ← remaining_eq, ← remaining_eq, need] at hlength
      have hle := c.position_le
      have hle' := c'.position_le
      refine ⟨front, gives, ?_, ?_⟩
      · rwa [rest, rest, buffer] at h
      · simp only [Cursor.remaining, buffer] at hlength hle'
        omega

end Answering

/-- What stands in front of the bytes that remain. -/
theorem take_of_rest {c : Cursor} {front : Bytes} (h : c.buffer = front ++ c.rest) :
    c.buffer.take (c.buffer.length - c.remaining) = front := by
  have hlength := congrArg List.length h
  rw [List.length_append, ← remaining_eq] at hlength
  rw [hlength, Nat.add_sub_cancel]
  exact (congrArg (List.take front.length) h).trans List.take_left

/-! ### A series of reads -/

/-- What reads give, one after the other, and where they leave the cursor. -/
def answers : List Read → Cursor → List (Option Value) × Cursor
  | [], c => ([], c)
  | read :: rest, c =>
      let (value, c) := c.answer read
      let (values, c) := answers rest c
      (value :: values, c)

/-- The bytes that the reads which succeeded took, one behind the other. -/
inductive Consumed : List Read → List (Option Value) → Bytes → Prop where
  | nil : Consumed [] [] []
  | failed {read reads values bs} (h : Consumed reads values bs) :
      Consumed (read :: reads) (none :: values) bs
  | taken {read reads value values front bs} (gives : Gives read front value)
      (h : Consumed reads values bs) :
      Consumed (read :: reads) (some value :: values) (front ++ bs)

/-- **A series of reads takes the front of what remained.** -/
theorem exists_consumed (reads : List Read) (c : Cursor) :
    ∃ bs, Consumed reads (answers reads c).1 bs ∧ c.rest = bs ++ (answers reads c).2.rest ∧
      (answers reads c).2.buffer = c.buffer := by
  induction reads generalizing c with
  | nil => exact ⟨[], .nil, rfl, rfl⟩
  | cons read reads ih =>
      have hfirst := answering_answer c read
      obtain ⟨bs, hconsumed, hrest, hbuffer⟩ := ih (c.answer read).2
      rw [hfirst.buffer_eq] at hbuffer
      simp only [answers]
      generalize c.answer read = first at hfirst hconsumed hrest hbuffer ⊢
      obtain ⟨value, c'⟩ := first
      cases hfirst with
      | short => exact ⟨bs, .failed hconsumed, hrest, hbuffer⟩
      | @taken front _ _ _ h _ gives =>
          refine ⟨front ++ bs, .taken gives hconsumed, ?_, hbuffer⟩
          rw [h, hrest, List.append_assoc]

/-! ### In machine words -/

/-- `take?` with positions in machine words: the end of the read is a checked sum, and the bytes are
those between the two positions, if both are within the buffer and in order. -/
def takeInWords? (buffer : Bytes) (position count : UInt64) : Option (Bytes × UInt64) :=
  match Words.addChecked position count with
  | none => none
  | some stop =>
      if position ≤ stop ∧ stop.toNat ≤ buffer.length then
        some ((buffer.drop position.toNat).take (stop - position).toNat, stop)
      else none

/-- The cursor does the same if its position is a machine word. -/
structure InWords (c : Cursor) : Prop where
  /-- What remains is a difference that does not underflow. -/
  remaining : UInt64.ofNat c.position ≤ UInt64.ofNat c.buffer.length ∧
    (UInt64.ofNat c.buffer.length - UInt64.ofNat c.position).toNat = c.remaining
  /-- The end of a read is never a wrapped sum, -/
  stop : ∀ count stop, Words.addChecked (UInt64.ofNat c.position) count = some stop →
    stop.toNat = c.position + count.toNat
  /-- and where the sum does not fit a word, the read asks for more than remains. -/
  overflow : ∀ count, Words.addChecked (UInt64.ofNat c.position) count = none →
    c.remaining < count.toNat
  take : ∀ count, takeInWords? c.buffer (UInt64.ofNat c.position) count =
    (c.take? count.toNat).map fun taken => (taken.1, UInt64.ofNat taken.2.position)

/-- On a buffer whose length is a word, no sum on the way overflows unnoticed. -/
theorem inWords {c : Cursor} (hfits : c.buffer.length < UInt64.size) : c.InWords := by
  have hle := c.position_le
  have hposition : (UInt64.ofNat c.position).toNat = c.position := Words.toNat_ofNat_of_le hle hfits
  have hlength : (UInt64.ofNat c.buffer.length).toNat = c.buffer.length :=
    Words.toNat_ofNat_of_le (Nat.le_refl _) hfits
  have hordered : UInt64.ofNat c.position ≤ UInt64.ofNat c.buffer.length := by
    rw [UInt64.le_iff_toNat_le, hposition, hlength]
    exact hle
  have hoverflow : ∀ count, Words.addChecked (UInt64.ofNat c.position) count = none →
      c.remaining < count.toNat := by
    intro count h
    rw [Words.addChecked_eq, hposition] at h
    split at h
    · cases h
    · rw [Cursor.remaining]
      omega
  constructor
  case remaining =>
    refine ⟨hordered, ?_⟩
    rw [UInt64.toNat_sub_of_le _ _ hordered, hposition, hlength, Cursor.remaining]
  case stop =>
    intro count stop h
    rw [Words.toNat_of_addChecked h, hposition]
  case overflow => exact hoverflow
  case take =>
    intro count
    rw [takeInWords?]
    -- the sum overflows, and then too much was asked for, or is exact
    cases hstop : Words.addChecked (UInt64.ofNat c.position) count with
    | none => rw [take?_eq_none_iff.mpr (hoverflow count hstop), Option.map_none]
    | some stop =>
        have hsum := Words.toNat_of_addChecked hstop
        rw [hposition] at hsum
        have hordered : UInt64.ofNat c.position ≤ stop := by
          rw [UInt64.le_iff_toNat_le, hposition, hsum]
          exact Nat.le_add_right _ _
        have hcount : (stop - UInt64.ofNat c.position).toNat = count.toNat := by
          rw [UInt64.toNat_sub_of_le _ _ hordered, hsum, hposition, Nat.add_sub_cancel_left]
        have hback : UInt64.ofNat (c.position + count.toNat) = stop := by
          rw [← hsum, UInt64.ofNat_toNat]
        simp only [hordered, true_and, hcount, hposition, hsum, take?]
        by_cases hin : c.position + count.toNat ≤ c.buffer.length
        · rw [if_pos hin, dif_pos hin, Option.map_some, hback]
        · rw [if_neg hin, dif_neg hin, Option.map_none]

/-! ### The front of the buffer -/

/-- What a series of reads took of a buffer, and what the next read will do. -/
structure Series (buffer : Bytes) (reads : List Read) (values : List (Option Value)) (c : Cursor) :
    Prop where
  within : c.position ≤ buffer.length
  remaining : c.position + c.remaining = buffer.length
  /-- What was taken is the front of the buffer. -/
  consumed : Consumed reads values (buffer.take (buffer.length - c.remaining))
  /-- A read succeeds just when it needs no more than remains, -/
  succeeds : ∀ read, (c.answer read).1.isSome ↔ read.need ≤ c.remaining
  /-- one that fails takes nothing, -/
  fails : ∀ read, (c.answer read).1 = none → (c.answer read).2 = c
  /-- and one that succeeds takes what comes next in the buffer. -/
  takes : ∀ read value, (c.answer read).1 = some value → ∃ front, Gives read front value ∧
    buffer.drop c.position = front ++ buffer.drop (c.answer read).2.position ∧
    (c.answer read).2.position = c.position + read.need
  inWords : buffer.length < UInt64.size → c.InWords

/-- **What reads take is the front of the buffer**, whichever of them fail. -/
theorem reads_consume_front (buffer : Bytes) (reads : List Read) :
    Series buffer reads (answers reads (ofBytes buffer)).1 (answers reads (ofBytes buffer)).2 := by
  obtain ⟨bs, hconsumed, hrest, hbuffer⟩ := exists_consumed reads (ofBytes buffer)
  generalize (answers reads (ofBytes buffer)).1 = values at hconsumed ⊢
  generalize (answers reads (ofBytes buffer)).2 = c at hrest hbuffer ⊢
  obtain rfl : c.buffer = buffer := hbuffer
  have hle := c.position_le
  constructor
  case within => exact hle
  case remaining => exact Nat.add_sub_cancel' hle
  case consumed =>
    rw [rest_ofBytes] at hrest
    rwa [take_of_rest hrest]
  case succeeds => exact fun read => (answering_answer c read).isSome_iff
  case fails =>
    intro read hnone
    have hanswer := answering_answer c read
    rw [hnone] at hanswer
    exact hanswer.eq_of_none
  case takes =>
    intro read value hsome
    have hanswer := answering_answer c read
    rw [hsome] at hanswer
    exact hanswer.next
  case inWords => exact Cursor.inWords

/-- A word, a signed word, a word too many, and the byte that is left. -/
example : (answers [.word, .signed, .word, .take 1]
    (ofBytes [1, 0, 0, 0, 0xff, 0xff, 0xff, 0xff, 9])).1 =
    [some (.word 1), some (.signed (-1)), none, some (.bytes [9])] := by
  decide

end Cursor

end SharedSync
