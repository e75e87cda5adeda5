import SharedSync.Words

/-!
# Words — reading what was written

`rest c` is what a cursor has yet to read.  A cursor in front of a number that was written reads
that number, and stands in front of what came behind it (`word?_of_rest`); and a cursor that reads
a number stood in front of it (`rest_of_word?`).
-/

namespace SharedSync

namespace Words

/-- A number that was read is written as its bytes. -/
theorem le32_of_readLe32? {bs : Bytes} {v : UInt32} (h : readLe32? bs = some v) :
    le32 v = bs := by
  unfold readLe32? at h
  split at h
  · next hlen =>
      cases h
      have hlt := ofLittleEndian_lt bs
      rw [hlen] at hlt
      have hbs := littleEndian_ofLittleEndian bs
      rwa [hlen, ← UInt32.toNat_ofNat_of_lt' hlt] at hbs
  · cases h

/-- A signed number that was read is written as its bytes. -/
theorem leInt32_of_readLeInt32? {bs : Bytes} {v : Int32} (h : readLeInt32? bs = some v) :
    leInt32 v = bs := by
  obtain ⟨w, hw, rfl⟩ := Option.map_eq_some_iff.mp h
  rw [leInt32, UInt32.toUInt32_toInt32, le32_of_readLe32? hw]

end Words

namespace Cursor

/-- The bytes not yet taken. -/
def rest (c : Cursor) : Bytes := c.buffer.drop c.position

variable {c c' : Cursor} {tail : Bytes}

theorem rest_ofBytes (src : Bytes) : (ofBytes src).rest = src := List.drop_zero

theorem remaining_eq (c : Cursor) : c.remaining = c.rest.length := by
  rw [rest, List.length_drop, remaining]

/-- What comes next is taken, and the cursor stands behind it. -/
theorem take?_of_rest {front : Bytes} (h : c.rest = front ++ tail) :
    ∃ c', c.take? front.length = some (front, c') ∧ c'.rest = tail := by
  have hlen := congrArg List.length h
  rw [← remaining_eq, remaining, List.length_append] at hlen
  have hle := c.position_le
  have hfits : c.position + front.length ≤ c.buffer.length := by omega
  refine ⟨⟨c.buffer, c.position + front.length, hfits⟩, ?_, ?_⟩
  · rw [take?, dif_pos hfits]
    rw [rest] at h
    rw [h, List.take_left]
  · show c.buffer.drop (c.position + front.length) = tail
    rw [← List.drop_drop, show c.buffer.drop c.position = front ++ tail from h, List.drop_left]

/-- A number that comes next is read. -/
theorem word?_of_rest {v : UInt32} (h : c.rest = Words.le32 v ++ tail) :
    ∃ c', c.word? = some (v, c') ∧ c'.rest = tail := by
  obtain ⟨c', ht, hr⟩ := take?_of_rest h
  rw [Words.length_le32] at ht
  refine ⟨c', ?_, hr⟩
  rw [word?, ht]
  simp only [Words.readLe32?_le32, Option.map_some]

/-- A signed number that comes next is read. -/
theorem signed?_of_rest {v : Int32} (h : c.rest = Words.leInt32 v ++ tail) :
    ∃ c', c.signed? = some (v, c') ∧ c'.rest = tail := by
  obtain ⟨c', ht, hr⟩ := take?_of_rest h
  rw [Words.length_leInt32] at ht
  refine ⟨c', ?_, hr⟩
  rw [signed?, ht]
  simp only [Words.readLeInt32?_leInt32, Option.map_some]

/-! ### What is read was there -/

/-- What was taken came next. -/
theorem rest_of_take? {n : Nat} {front : Bytes} (h : c.take? n = some (front, c')) :
    c.rest = front ++ c'.rest ∧ front.length = n := by
  unfold take? at h
  split at h
  · next hfits =>
      cases h
      refine ⟨?_, ?_⟩
      · show c.buffer.drop c.position =
          (c.buffer.drop c.position).take n ++ c.buffer.drop (c.position + n)
        rw [← List.drop_drop, List.take_append_drop]
      · rw [List.length_take, List.length_drop]
        omega
  · cases h

/-- A number that was read came next. -/
theorem rest_of_word? {v : UInt32} (h : c.word? = some (v, c')) :
    c.rest = Words.le32 v ++ c'.rest := by
  unfold word? at h
  split at h
  · cases h
  · next bs rest ht =>
      obtain ⟨w, hw, hpair⟩ := Option.map_eq_some_iff.mp h
      cases hpair
      rw [(rest_of_take? ht).1, Words.le32_of_readLe32? hw]

/-- A signed number that was read came next. -/
theorem rest_of_signed? {v : Int32} (h : c.signed? = some (v, c')) :
    c.rest = Words.leInt32 v ++ c'.rest := by
  unfold signed? at h
  split at h
  · cases h
  · next bs rest ht =>
      obtain ⟨w, hw, hpair⟩ := Option.map_eq_some_iff.mp h
      cases hpair
      rw [(rest_of_take? ht).1, Words.leInt32_of_readLeInt32? hw]

end Cursor

end SharedSync
