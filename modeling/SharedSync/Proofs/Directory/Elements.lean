import SharedSync.Directory

/-!
# Directory — read as one flat array

Chunks are a way to store an array: `element d i` is what index `i` holds, where a chunk that does
not exist yet holds defaults.

* `element_touch`: making a chunk changes no element.
* `touch_result`: touching an index within the capacity shows its element; any other index shows
  nothing.
* `element_set`: writing a visible index changes that element and no other.
-/

namespace SharedSync.Directory

variable {α : Type}

/-- Chunks hold at least one element, and a chunk that exists is full. -/
structure WellFormed (d : Directory α) : Prop where
  pos : 0 < d.chunkLength
  full : ∀ position chunk, d.chunk? position = some chunk → chunk.size = d.chunkLength

/-- What an index holds, visible or not. -/
def element [Inhabited α] (d : Directory α) (index : Nat) : α := (d.get? index).getD default

/-! ### Chunks -/

theorem split_of_lt {d : Directory α} {i : Nat} (h : i < d.capacity) :
    d.split i = some (i / d.chunkLength, i % d.chunkLength) := by
  have hq : i / d.chunkLength < d.chunkCount := Nat.div_lt_of_lt_mul (Nat.mul_comm _ _ ▸ h)
  rw [split, if_pos hq]

theorem split_of_le {d : Directory α} (hd : d.WellFormed) {i : Nat} (h : d.capacity ≤ i) :
    d.split i = none := by
  have hq : ¬ i / d.chunkLength < d.chunkCount := fun hlt =>
    Nat.not_lt.mpr h ((Nat.div_lt_iff_lt_mul hd.pos).mp hlt)
  rw [split, if_neg hq]

theorem get?_of_lt {d : Directory α} {i : Nat} (h : i < d.capacity) :
    d.get? i = (d.chunk? (i / d.chunkLength)).bind fun chunk => chunk[i % d.chunkLength]? := by
  rw [get?, split_of_lt h]

theorem get?_of_le {d : Directory α} (hd : d.WellFormed) {i : Nat} (h : d.capacity ≤ i) :
    d.get? i = none := by
  rw [get?, split_of_le hd h]

@[simp] theorem chunkLength_touchChunk [Inhabited α] (d : Directory α) (p : Nat) :
    (d.touchChunk p).chunkLength = d.chunkLength := by
  unfold touchChunk
  split <;> rfl

@[simp] theorem capacity_touchChunk [Inhabited α] (d : Directory α) (p : Nat) :
    (d.touchChunk p).capacity = d.capacity := by
  unfold touchChunk
  split
  · simp only [capacity, chunkCount, Array.size_setIfInBounds]
  · rfl

/-- Touching makes the chunk at `p` if it is missing and leaves every other chunk alone. -/
theorem chunk?_touchChunk [Inhabited α] (d : Directory α) (p q : Nat) :
    (d.touchChunk p).chunk? q =
      if q = p ∧ p < d.chunkCount ∧ d.chunk? p = none then
        some (Array.replicate d.chunkLength default)
      else d.chunk? q := by
  unfold touchChunk
  split
  · next hp =>
      have hlt : p < d.chunks.size := (Array.getElem?_eq_some_iff.mp hp).1
      have hnone : d.chunk? p = none := by rw [chunk?, hp]; rfl
      by_cases hq : q = p
      · subst hq
        rw [if_pos ⟨rfl, hlt, hnone⟩, chunk?, Array.getElem?_setIfInBounds_self, if_pos hlt]
        rfl
      · rw [if_neg fun h => hq h.1, chunk?, Array.getElem?_setIfInBounds_ne (Ne.symm hq)]
        rfl
  · next hp =>
      refine (if_neg ?_).symm
      rintro ⟨-, hlt, hnone⟩
      cases hc : d.chunks[p]? with
      | none => exact absurd (Array.getElem?_eq_none_iff.mp hc) (Nat.not_le.mpr hlt)
      | some chunk =>
          cases chunk with
          | none => exact hp hc
          | some chunk => rw [chunk?, hc] at hnone; cases hnone

/-- A chunk that is made has its full length. -/
theorem WellFormed.touchChunk [Inhabited α] {d : Directory α} (hd : d.WellFormed) (p : Nat) :
    (d.touchChunk p).WellFormed := by
  refine ⟨by rw [chunkLength_touchChunk]; exact hd.pos, fun q chunk h => ?_⟩
  rw [chunk?_touchChunk] at h
  rw [chunkLength_touchChunk]
  split at h
  · cases h; exact Array.size_replicate
  · exact hd.full q chunk h

/-! ### A directory without chunks -/

theorem chunk?_of_replicate {d : Directory α} {n : Nat} (h : d.chunks = Array.replicate n none)
    (p : Nat) : d.chunk? p = none := by
  rw [chunk?, h, Array.getElem?_replicate]
  split <;> rfl

theorem wellFormed_of_replicate {d : Directory α} {n : Nat} (hpos : 0 < d.chunkLength)
    (h : d.chunks = Array.replicate n none) : d.WellFormed :=
  ⟨hpos, fun p chunk hc => by rw [chunk?_of_replicate h] at hc; cases hc⟩

/-- A new directory stands for an array of defaults. -/
theorem element_of_replicate [Inhabited α] {d : Directory α} {n : Nat}
    (h : d.chunks = Array.replicate n none) (i : Nat) : d.element i = default := by
  rw [element, get?]
  split
  · rfl
  · rw [chunk?_of_replicate h]
    rfl

/-! ### Touching -/

/-- An element is visible once its chunk was touched. -/
theorem get?_touchChunk_self [Inhabited α] {d : Directory α} (hd : d.WellFormed) {i : Nat}
    (h : i < d.capacity) :
    (d.touchChunk (i / d.chunkLength)).get? i = some (d.element i) := by
  have hq : i / d.chunkLength < d.chunkCount := Nat.div_lt_of_lt_mul (Nat.mul_comm _ _ ▸ h)
  have ho : i % d.chunkLength < d.chunkLength := Nat.mod_lt _ hd.pos
  rw [get?_of_lt (by rwa [capacity_touchChunk]), chunkLength_touchChunk, chunk?_touchChunk,
    element, get?_of_lt h]
  cases hc : d.chunk? (i / d.chunkLength) with
  | none =>
      rw [if_pos ⟨rfl, hq, rfl⟩, Option.bind_some, Array.getElem?_replicate, if_pos ho]
      rfl
  | some chunk =>
      have ho' : i % d.chunkLength < chunk.size := (hd.full _ _ hc).symm ▸ ho
      have hne : ¬ (some chunk = none) := nofun
      rw [if_neg fun h => hne h.2.2, Option.bind_some, Array.getElem?_eq_getElem ho']
      rfl

/-- Making a chunk changes no element of the array. -/
theorem element_touchChunk [Inhabited α] {d : Directory α} (hd : d.WellFormed) (p i : Nat) :
    (d.touchChunk p).element i = d.element i := by
  rcases Nat.lt_or_ge i d.capacity with h | h
  · by_cases hp : i / d.chunkLength = p
    · subst hp
      rw [element, get?_touchChunk_self hd h]
      rfl
    · rw [element, element, get?_of_lt (by rwa [capacity_touchChunk]), get?_of_lt h,
        chunkLength_touchChunk, chunk?_touchChunk, if_neg fun h => hp h.1]
  · rw [element, element, get?_of_le hd h,
      get?_of_le (hd.touchChunk p) (by rwa [capacity_touchChunk])]

/-- Touching an index shows its element if the index is within the capacity. -/
theorem touch_result [Inhabited α] {d : Directory α} (hd : d.WellFormed) (i : Nat) :
    (d.touch i).1 = if i < d.capacity then some (d.element i) else none := by
  rcases Nat.lt_or_ge i d.capacity with h | h
  · rw [touch, split_of_lt h, if_pos h]
    exact get?_touchChunk_self hd h
  · rw [touch, split_of_le hd h, if_neg (Nat.not_lt.mpr h)]

/-- What touching leaves is the directory with one more chunk, or the same directory. -/
theorem touch_state [Inhabited α] (d : Directory α) (i : Nat) :
    (d.touch i).2 = d ∨ ∃ p, (d.touch i).2 = d.touchChunk p := by
  unfold touch
  split
  · exact .inl rfl
  · exact .inr ⟨_, rfl⟩

theorem WellFormed.touch [Inhabited α] {d : Directory α} (hd : d.WellFormed) (i : Nat) :
    (d.touch i).2.WellFormed := by
  rcases touch_state d i with h | ⟨p, h⟩ <;> rw [h]
  · exact hd
  · exact hd.touchChunk p

@[simp] theorem capacity_touch [Inhabited α] (d : Directory α) (i : Nat) :
    (d.touch i).2.capacity = d.capacity := by
  rcases touch_state d i with h | ⟨p, h⟩ <;> rw [h]
  exact capacity_touchChunk d p

theorem element_touch [Inhabited α] {d : Directory α} (hd : d.WellFormed) (i j : Nat) :
    (d.touch i).2.element j = d.element j := by
  rcases touch_state d i with h | ⟨p, h⟩ <;> rw [h]
  exact element_touchChunk hd p j

/-- Within the capacity, touching an index makes its chunk. -/
theorem touch_state_of_lt [Inhabited α] {d : Directory α} {i : Nat} (h : i < d.capacity) :
    (d.touch i).2 = d.touchChunk (i / d.chunkLength) := by
  rw [touch, split_of_lt h]

@[simp] theorem chunkCount_touchChunk [Inhabited α] (d : Directory α) (p : Nat) :
    (d.touchChunk p).chunkCount = d.chunkCount := by
  unfold touchChunk
  split
  · simp only [chunkCount, Array.size_setIfInBounds]
  · rfl

/-- A chunk that exists is not made again. -/
theorem touchChunk_of_isSome [Inhabited α] {d : Directory α} {p : Nat}
    (h : (d.chunk? p).isSome) : d.touchChunk p = d := by
  unfold touchChunk
  split
  · next hp =>
      rw [chunk?, hp] at h
      cases h
  · rfl

/-- Making a chunk is counted. -/
theorem allocated_touchChunk [Inhabited α] {d : Directory α} {p : Nat} (hp : p < d.chunkCount)
    (h : d.chunk? p = none) : (d.touchChunk p).allocated = d.allocated + 1 := by
  have hchunk : d.chunks[p]? = some none := by
    rw [chunk?, Array.getElem?_eq_getElem hp] at h
    rw [Array.getElem?_eq_getElem hp]
    exact congrArg some h
  simp only [touchChunk, hchunk]

/-- Only an index of a chunk that exists holds more than the default. -/
theorem element_of_chunk?_eq_none [Inhabited α] {d : Directory α} {i : Nat}
    (h : d.chunk? (i / d.chunkLength) = none) : d.element i = default := by
  rw [element, get?]
  split
  · rfl
  · next hs =>
      unfold split at hs
      split at hs
      · cases hs
        rw [h]
        rfl
      · cases hs

/-! ### Writing -/

@[simp] theorem capacity_set (d : Directory α) (i : Nat) (a : α) :
    (d.set i a).capacity = d.capacity := by
  unfold set
  split
  · rfl
  · simp only [capacity, chunkCount, Array.size_modify]

@[simp] theorem chunkLength_set (d : Directory α) (i : Nat) (a : α) :
    (d.set i a).chunkLength = d.chunkLength := by
  unfold set
  split <;> rfl

@[simp] theorem chunkCount_set (d : Directory α) (i : Nat) (a : α) :
    (d.set i a).chunkCount = d.chunkCount := by
  unfold set
  split
  · rfl
  · simp only [chunkCount, Array.size_modify]

@[simp] theorem allocated_set (d : Directory α) (i : Nat) (a : α) :
    (d.set i a).allocated = d.allocated := by
  unfold set
  split <;> rfl

/-- A write reaches one place of one chunk. -/
theorem chunk?_set {d : Directory α} {i : Nat} (h : i < d.capacity) (a : α) (q : Nat) :
    (d.set i a).chunk? q =
      if q = i / d.chunkLength then
        (d.chunk? q).map fun chunk => chunk.setIfInBounds (i % d.chunkLength) a
      else d.chunk? q := by
  rw [set, split_of_lt h]
  simp only [chunk?, Array.getElem?_modify]
  by_cases hq : i / d.chunkLength = q
  · rw [if_pos hq, if_pos hq.symm]
    rcases d.chunks[q]? with - | - | chunk <;> rfl
  · rw [if_neg hq, if_neg (Ne.symm hq)]

/-- Writing makes no chunk. -/
theorem isSome_chunk?_set {d : Directory α} {i : Nat} (h : i < d.capacity) (a : α) (q : Nat) :
    ((d.set i a).chunk? q).isSome = (d.chunk? q).isSome := by
  rw [chunk?_set h]
  split
  · exact Option.isSome_map
  · rfl

/-- A write leaves every chunk its length. -/
theorem WellFormed.set {d : Directory α} (hd : d.WellFormed) {i : Nat} (h : i < d.capacity)
    (a : α) : (d.set i a).WellFormed := by
  refine ⟨by rw [chunkLength_set]; exact hd.pos, fun q chunk hc => ?_⟩
  rw [chunk?_set h] at hc
  rw [chunkLength_set]
  split at hc
  · obtain ⟨c, hq, rfl⟩ := Option.map_eq_some_iff.mp hc
    rw [Array.size_setIfInBounds]
    exact hd.full q c hq
  · exact hd.full q chunk hc

/-- Writing to a visible index changes what it holds, and nothing else. -/
theorem element_set [Inhabited α] {d : Directory α} (hd : d.WellFormed) {i : Nat}
    (hv : (d.get? i).isSome) (a : α) (j : Nat) :
    (d.set i a).element j = if j = i then a else d.element j := by
  have h : i < d.capacity := Nat.lt_of_not_le fun hle => by
    rw [get?_of_le hd hle] at hv
    cases hv
  -- the other index is in the same chunk, in another one, or behind the array
  rcases Nat.lt_or_ge j d.capacity with hj | hj
  · rw [element, get?_of_lt (by rwa [capacity_set]), chunkLength_set, chunk?_set h]
    by_cases hq : j / d.chunkLength = i / d.chunkLength
    · rw [if_pos hq]
      rw [get?_of_lt h, ← hq] at hv
      obtain ⟨chunk, hc⟩ : ∃ chunk, d.chunk? (j / d.chunkLength) = some chunk := by
        cases hc : d.chunk? (j / d.chunkLength) with
        | none => rw [hc] at hv; cases hv
        | some chunk => exact ⟨chunk, rfl⟩
      have hsize := hd.full _ _ hc
      have ho : i % d.chunkLength < chunk.size := by rw [hsize]; exact Nat.mod_lt _ hd.pos
      rw [hc, Option.map_some, Option.bind_some]
      by_cases hji : j = i
      · subst hji
        rw [if_pos rfl, Array.getElem?_setIfInBounds_self, if_pos ho]
        rfl
      · -- one chunk, so the two indices differ in their places there
        have hoff : i % d.chunkLength ≠ j % d.chunkLength := fun he => hji (by
          rw [← Nat.div_add_mod j d.chunkLength, ← Nat.div_add_mod i d.chunkLength, hq, he])
        rw [if_neg hji, Array.getElem?_setIfInBounds_ne hoff, element, get?_of_lt hj, hc]
        rfl
    · have hji : j ≠ i := fun he => hq (by rw [he])
      rw [if_neg hq, if_neg hji, element, get?_of_lt hj]
  · have hji : j ≠ i := fun he => Nat.not_lt.mpr hj (he ▸ h)
    rw [if_neg hji, element, element, get?_of_le hd hj,
      get?_of_le (hd.set h a) (by rwa [capacity_set])]

/-- Touching an index and writing to it. -/
theorem element_touch_set [Inhabited α] {d : Directory α} (hd : d.WellFormed) {i : Nat}
    (h : i < d.capacity) (a : α) (j : Nat) :
    ((d.touch i).2.set i a).element j = if j = i then a else d.element j := by
  have hv : ((d.touch i).2.get? i).isSome := by
    rw [touch, split_of_lt h]
    exact Option.isSome_iff_exists.mpr ⟨_, get?_touchChunk_self hd h⟩
  rw [element_set (hd.touch i) hv, element_touch hd]

end SharedSync.Directory
