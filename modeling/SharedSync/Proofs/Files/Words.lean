import SharedSync.Files

/-!
# Files — the words that mappings show

Two files that show the same four bytes at an offset show the same word there, so it is enough to
say what an operation does to bytes.

* `word_storeWord_self`, `word_storeWord_of_disjoint`: a store through a mapping changes its word
  and no word beside it.
* `byte_write_of_lt`, `byte_resize_of_lt`: neither a write behind an offset nor growth changes a
  byte in front of it that the file already had.
* `word_write_append`: a block of two words that was written is read back word by word.
-/

namespace SharedSync.FileContents

/-! ### Bytes and words -/

theorem bytesAt_eq {f : FileContents} {offset : Nat} {data : Bytes}
    (h : ∀ i, (hi : i < data.length) → f.byte (offset + i) = data[i]) :
    f.bytesAt offset data.length = data := by
  refine List.ext_getElem (by simp [bytesAt]) fun i hi hi' => ?_
  simp only [bytesAt, List.getElem_map, List.getElem_range]
  exact h i hi'

theorem bytesAt_congr {f g : FileContents} {offset count : Nat}
    (h : ∀ i, i < count → f.byte (offset + i) = g.byte (offset + i)) :
    f.bytesAt offset count = g.bytesAt offset count :=
  List.map_congr_left fun i hi => h i (List.mem_range.mp hi)

theorem bytesAt_add (f : FileContents) (offset m n : Nat) :
    f.bytesAt offset (m + n) = f.bytesAt offset m ++ f.bytesAt (offset + m) n := by
  simp only [bytesAt, List.range_add, List.map_append, List.map_map, Function.comp_def,
    Nat.add_assoc]

theorem word_congr {f g : FileContents} {offset : Nat}
    (h : ∀ i, i < 4 → f.byte (offset + i) = g.byte (offset + i)) :
    f.word offset = g.word offset := by
  rw [word, bytesAt_congr h, word]

theorem word_of_bytesAt {f : FileContents} {offset : Nat} {value : UInt32}
    (h : f.bytesAt offset 4 = Words.le32 value) : f.word offset = value := by
  have hv : value.toNat % Words.values 4 = value.toNat := Nat.mod_eq_of_lt value.toNat_lt
  rw [word, h, Words.le32, Words.ofLittleEndian_littleEndian, hv, UInt32.ofNat_toNat]

/-- Two words that stand next to each other are read one by one. -/
theorem words_of_bytesAt {f : FileContents} {offset : Nat} {v w : UInt32}
    (h : f.bytesAt offset 8 = Words.le32 v ++ Words.le32 w) :
    f.word offset = v ∧ f.word (offset + 4) = w := by
  have hsplit := (f.bytesAt_add offset 4 4).symm.trans h
  obtain ⟨hv, hw⟩ := List.append_inj hsplit (by simp [bytesAt])
  exact ⟨word_of_bytesAt hv, word_of_bytesAt hw⟩

/-- The word that four known bytes make. -/
theorem word_eq {f : FileContents} {offset : Nat} {value : UInt32}
    (h : ∀ i, (hi : i < (Words.le32 value).length) → f.byte (offset + i) = (Words.le32 value)[i]) :
    f.word offset = value := by
  have hb := bytesAt_eq h
  rw [Words.length_le32] at hb
  exact word_of_bytesAt hb

/-! ### Storing -/

theorem byte_store_of_lt (f : FileContents) {offset i : Nat} (data : Bytes) (h : i < offset) :
    (f.store offset data).byte i = f.byte i := by
  rw [byte_store, if_neg (Nat.not_le.mpr h)]

theorem byte_store_of_le (f : FileContents) {offset i : Nat} {data : Bytes}
    (h : offset + data.length ≤ i) : (f.store offset data).byte i = f.byte i := by
  rw [byte_store, List.getElem?_eq_none (by omega)]
  exact ite_self _

theorem byte_store_add (f : FileContents) (offset : Nat) {data : Bytes} {i : Nat}
    (h : i < data.length) : (f.store offset data).byte (offset + i) = data[i] := by
  rw [byte_store, if_pos (Nat.le_add_right _ _), Nat.add_sub_cancel_left,
    List.getElem?_eq_getElem h, Option.getD_some]

theorem bytesAt_store (f : FileContents) (offset : Nat) (data : Bytes) :
    (f.store offset data).bytesAt offset data.length = data :=
  bytesAt_eq fun _ hi => byte_store_add f offset hi

/-- A word that was stored reads back. -/
theorem word_storeWord_self (f : FileContents) (offset : Nat) (value : UInt32) :
    (f.storeWord offset value).word offset = value :=
  word_eq fun _ hi => byte_store_add f offset hi

/-- A word elsewhere stays. -/
theorem word_storeWord_of_disjoint (f : FileContents) {offset other : Nat} (value : UInt32)
    (h : other + 4 ≤ offset ∨ offset + 4 ≤ other) :
    (f.storeWord offset value).word other = f.word other := by
  refine word_congr fun i hi => ?_
  rcases h with h | h
  · exact byte_store_of_lt f _ (by omega)
  · exact byte_store_of_le f (by rw [Words.length_le32]; omega)

@[simp] theorem size_storeWord (f : FileContents) (offset : Nat) (value : UInt32) :
    (f.storeWord offset value).size = f.size := size_store f offset _

/-! ### Growing and writing -/

theorem byte_resize_of_lt {f : FileContents} {size i : Nat} (hi : i < f.size)
    (hs : f.size ≤ size) : (f.resize size).byte i = f.byte i := by
  rw [byte_resize, if_pos (by omega)]

@[simp] theorem size_resize (f : FileContents) (size : Nat) : (f.resize size).size = size := rfl

/-- A write moves the end if it reaches behind it. -/
theorem size_write (f : FileContents) (offset : Nat) {data : Bytes} (h : data ≠ []) :
    (f.write offset data).size = max f.size (offset + data.length) := by
  have hd : data.isEmpty = false := by cases data <;> simp_all
  rw [write, hd]
  simp only [Bool.not_false, Bool.and_true, decide_eq_true_eq, size_store]
  split
  · rw [size_resize]
    exact (Nat.max_eq_right (by omega)).symm
  · exact (Nat.max_eq_left (by omega)).symm

/-- A write within a file is a store. -/
theorem write_of_le {f : FileContents} {offset : Nat} {data : Bytes}
    (h : offset + data.length ≤ f.size) : f.write offset data = f.store offset data := by
  rw [write, decide_eq_false (Nat.not_lt.mpr h), Bool.false_and]
  exact congrArg (store · offset data) (if_neg Bool.false_ne_true)

/-- A write never shortens the file. -/
theorem size_le_size_write (f : FileContents) (offset : Nat) (data : Bytes) :
    f.size ≤ (f.write offset data).size := by
  by_cases h : data = []
  · subst h
    rw [write, size_store]
    simp
  · rw [size_write f offset h]
    exact Nat.le_max_left _ _

/-- What is in front of a write stays. -/
theorem byte_write_of_lt {f : FileContents} {offset i : Nat} (data : Bytes) (ho : i < offset)
    (hi : i < f.size) : (f.write offset data).byte i = f.byte i := by
  rw [write, byte_store_of_lt _ _ ho]
  split
  · next h =>
      simp only [Bool.and_eq_true, decide_eq_true_eq] at h
      exact byte_resize_of_lt hi (Nat.le_of_lt h.1)
  · rfl

theorem byte_write_add (f : FileContents) (offset : Nat) {data : Bytes} {i : Nat}
    (h : i < data.length) : (f.write offset data).byte (offset + i) = data[i] := by
  rw [write]
  exact byte_store_add _ offset h

/-- Two words that were written next to each other are read back one by one. -/
theorem word_write_append (f : FileContents) (offset : Nat) (v w : UInt32) :
    (f.write offset (Words.le32 v ++ Words.le32 w)).word offset = v ∧
      (f.write offset (Words.le32 v ++ Words.le32 w)).word (offset + 4) = w := by
  have hb : (f.write offset (Words.le32 v ++ Words.le32 w)).bytesAt offset
      (Words.le32 v ++ Words.le32 w).length = Words.le32 v ++ Words.le32 w :=
    bytesAt_eq fun _ hi => byte_write_add f offset hi
  rw [List.length_append, Words.length_le32, Words.length_le32] at hb
  exact words_of_bytesAt hb

end SharedSync.FileContents
