import Mathlib.Data.Finset.Card
import Mathlib.Data.Finset.Insert
import Mathlib.Data.List.Basic
import SharedSync.Proofs.Directory.Elements

/-!
# Directory — a flat array of which touched chunks are visible

A directory of `c` chunks of `l` elements is used in any order: indices are touched and looked up, and
an element that was shown is written to, then or later.  The log of these uses tells what the
directory shows: a chunk is visible from its first touch on (`touchedChunks`), and an index holds what
was last written to it (`valueIn`).

* `toList_eq`: the elements in order are those of the visible indices in order.
* `Reflects c l log d`: the directory `d` is what its log says.  `Reflects.touched`, `Reflects.written`:
  one more use keeps that; `Run.reflects`: so does any number.
* `flat_array`: so a directory is one flat array.
-/

namespace SharedSync.Directory

variable {α : Type}

/-! ### The elements in order -/

/-- The indices of an array, chunk by chunk. -/
theorem range_mul (c l : Nat) :
    List.range (c * l) = (List.range c).flatMap fun p => (List.range l).map fun o => p * l + o := by
  induction c with
  | zero => simp
  | succ c ih =>
      rw [Nat.succ_mul, List.range_add, ih, List.range_succ, List.flatMap_append,
        List.flatMap_singleton]

/-- The chunks in the order of their positions. -/
theorem chunks_toList (d : Directory α) :
    d.chunks.toList = (List.range d.chunkCount).map d.chunk? := by
  refine List.ext_getElem (by simp [chunkCount]) fun p hp _ => ?_
  rw [List.getElem_map, List.getElem_range, chunk?, Array.getElem_toList,
    Array.getElem?_eq_getElem (by simpa using hp)]
  rfl

/-- The index at a place of a chunk. -/
theorem get?_place {d : Directory α} {p o : Nat} (hp : p < d.chunkCount) (ho : o < d.chunkLength) :
    d.get? (p * d.chunkLength + o) = (d.chunk? p).bind fun chunk => chunk[o]? := by
  have hpos : 0 < d.chunkLength := Nat.lt_of_le_of_lt (Nat.zero_le o) ho
  have hq : (p * d.chunkLength + o) / d.chunkLength = p := by
    rw [Nat.mul_comm, Nat.mul_add_div hpos, Nat.div_eq_of_lt ho, Nat.add_zero]
  have hr : (p * d.chunkLength + o) % d.chunkLength = o := by
    rw [Nat.mul_comm, Nat.mul_add_mod, Nat.mod_eq_of_lt ho]
  rw [get?, split, hq, hr, if_pos hp]

/-- An index is visible if its chunk exists. -/
theorem get?_eq [Inhabited α] {d : Directory α} (hd : d.WellFormed) (i : Nat) :
    d.get? i = if i < d.capacity ∧ (d.chunk? (i / d.chunkLength)).isSome then some (d.element i)
      else none := by
  rcases Nat.lt_or_ge i d.capacity with h | h
  · cases hc : d.chunk? (i / d.chunkLength) with
    | none =>
        rw [get?_of_lt h, hc, if_neg fun hv => Bool.false_ne_true hv.2]
        rfl
    | some chunk =>
        have ho : i % d.chunkLength < chunk.size := (hd.full _ _ hc).symm ▸ Nat.mod_lt _ hd.pos
        rw [if_pos ⟨h, rfl⟩, element, get?_of_lt h, hc, Option.bind_some,
          Array.getElem?_eq_getElem ho]
        rfl
  · rw [get?_of_le hd h, if_neg fun hv => Nat.not_lt.mpr h hv.1]

/-- The visible indices of a chunk are all of them or none. -/
theorem chunk_elements [Inhabited α] {d : Directory α} (hd : d.WellFormed) {p : Nat}
    (hp : p < d.chunkCount) :
    ((d.chunk? p).map Array.toList).getD [] =
      (((List.range d.chunkLength).map fun o => p * d.chunkLength + o).filter
        fun i => (d.get? i).isSome).map d.element := by
  rw [List.filter_map, List.map_map]
  cases hc : d.chunk? p with
  | none =>
      have hnone : (List.range d.chunkLength).filter
          ((fun i => (d.get? i).isSome) ∘ fun o => p * d.chunkLength + o) = [] := by
        refine List.filter_eq_nil_iff.mpr fun o ho => ?_
        rw [Function.comp_apply, get?_place hp (List.mem_range.mp ho), hc]
        exact Bool.false_ne_true
      rw [hnone]
      rfl
  | some chunk =>
      have hsize := hd.full p chunk hc
      have hget : ∀ o, (h : o < chunk.size) →
          d.get? (p * d.chunkLength + o) = some chunk[o] := fun o h => by
        rw [get?_place hp (hsize ▸ h), hc, Option.bind_some, Array.getElem?_eq_getElem h]
      have hall : (List.range d.chunkLength).filter
          ((fun i => (d.get? i).isSome) ∘ fun o => p * d.chunkLength + o) =
            List.range d.chunkLength := by
        refine List.filter_eq_self.mpr fun o ho => ?_
        rw [Function.comp_apply, hget o (hsize.symm ▸ List.mem_range.mp ho)]
        rfl
      rw [hall]
      refine List.ext_getElem (by simp [hsize]) fun o ho _ => ?_
      have ho' : o < chunk.size := ho
      rw [List.getElem_map, List.getElem_range, Function.comp_apply, element, hget o ho']
      rfl

/-- **The elements in order are those of the visible indices, in order and each once.** -/
theorem toList_eq [Inhabited α] {d : Directory α} (hd : d.WellFormed) :
    d.toList = ((List.range d.capacity).filter fun i => (d.get? i).isSome).map d.element := by
  rw [toList, chunks_toList, List.flatMap_map, capacity, range_mul, List.filter_flatMap,
    List.map_flatMap]
  exact List.flatMap_congr fun p hp => chunk_elements hd (List.mem_range.mp hp)

/-- Within the capacity, an index has a place of its own. -/
theorem split_inj {d : Directory α} {i j : Nat} (h : i < d.capacity) (heq : d.split i = d.split j) :
    i = j := by
  rw [split_of_lt h, split] at heq
  split at heq
  · obtain ⟨hq, hr⟩ := Prod.mk.inj (Option.some.inj heq)
    rw [← Nat.div_add_mod i d.chunkLength, ← Nat.div_add_mod j d.chunkLength, hq, hr]
  · cases heq

/-! ### Uses -/

/-- A use of a directory, and the element that it showed. -/
inductive Use (α : Type) where
  | touched (index : Nat) (shown : Option α)
  | found (index : Nat) (shown : Option α)
  | written (index : Nat) (value : α)

namespace Use

/-- The use showed an element of this index. -/
def Shows (index : Nat) (use : Use α) : Prop :=
  ∃ a, use = touched index (some a) ∨ use = found index (some a)

/-- The chunk that a use touches in a directory of `c` chunks of `l` elements. -/
def chunk? (c l : Nat) : Use α → Option Nat
  | touched index _ => if index < c * l then some (index / l) else none
  | found .. | written .. => none

/-- What a use writes to an index. -/
def value? (index : Nat) : Use α → Option α
  | written i a => if i = index then some a else none
  | touched .. | found .. => none

end Use

/-- The uses of a directory up to a point, and the directory there.  Only an element that was shown
can be written to, at any time from then on. -/
inductive Run [Inhabited α] (start : Directory α) : List (Use α) → Directory α → Prop where
  | nil : Run start [] start
  | touch {log d} (h : Run start log d) (index : Nat) :
      Run start (log ++ [.touched index (d.touch index).1]) (d.touch index).2
  | get {log d} (h : Run start log d) (index : Nat) :
      Run start (log ++ [.found index (d.get? index)]) d
  | write {log d index} (h : Run start log d) (held : ∃ use ∈ log, use.Shows index) (value : α) :
      Run start (log ++ [.written index value]) (d.set index value)

/-- The chunks that were touched. -/
def touchedChunks (c l : Nat) (log : List (Use α)) : Finset Nat :=
  (log.filterMap (Use.chunk? c l)).toFinset

/-- The chunk of an index within the capacity was touched. -/
def Visible (c l : Nat) (log : List (Use α)) (index : Nat) : Prop :=
  index < c * l ∧ index / l ∈ touchedChunks c l log

instance (c l : Nat) (log : List (Use α)) (index : Nat) : Decidable (Visible c l log index) :=
  inferInstanceAs (Decidable (_ ∧ _))

/-- What was last written to an index, or the default. -/
def valueIn [Inhabited α] (log : List (Use α)) (index : Nat) : α :=
  (log.reverse.findSome? (Use.value? index)).getD default

variable {c l : Nat} {log : List (Use α)} {d : Directory α} {index : Nat} {use : Use α}

theorem touchedChunks_snoc_of_none (h : use.chunk? c l = none) :
    touchedChunks c l (log ++ [use]) = touchedChunks c l log := by
  simp [touchedChunks, h]

theorem touchedChunks_snoc_of_some {p : Nat} (h : use.chunk? c l = some p) :
    touchedChunks c l (log ++ [use]) = insert p (touchedChunks c l log) := by
  ext q
  simp [touchedChunks, h, eq_comm]

theorem chunk?_touched_of_lt (h : index < c * l) (shown : Option α) :
    (Use.touched index shown).chunk? c l = some (index / l) := if_pos h

theorem chunk?_touched_of_le (h : c * l ≤ index) (shown : Option α) :
    (Use.touched index shown).chunk? c l = none := if_neg (Nat.not_lt.mpr h)

/-- What is visible stays visible. -/
theorem Visible.snoc (h : Visible c l log index) (use : Use α) :
    Visible c l (log ++ [use]) index := by
  refine ⟨h.1, ?_⟩
  cases hc : use.chunk? c l with
  | none => rw [touchedChunks_snoc_of_none hc]; exact h.2
  | some p => rw [touchedChunks_snoc_of_some hc]; exact Finset.mem_insert_of_mem h.2

/-- A use that writes decides the value, any other leaves it. -/
theorem valueIn_snoc [Inhabited α] (log : List (Use α)) (use : Use α) (i : Nat) :
    valueIn (log ++ [use]) i = (use.value? i).getD (valueIn log i) := by
  rw [valueIn, List.reverse_append, List.reverse_singleton, List.singleton_append,
    List.findSome?_cons]
  cases use.value? i <;> rfl

/-! ### A directory and its log -/

variable [Inhabited α]

/-- The directory of `c` chunks of `l` elements is what its log says. -/
structure Reflects (c l : Nat) (log : List (Use α)) (d : Directory α) : Prop where
  wellFormed : d.WellFormed
  chunkLength : d.chunkLength = l
  chunkCount : d.chunkCount = c
  element : ∀ i, d.element i = valueIn log i
  chunk : ∀ p, p < c → ((d.chunk? p).isSome ↔ p ∈ touchedChunks c l log)
  allocated : d.allocated = (touchedChunks c l log).card
  visible : ∀ i, (∃ use ∈ log, use.Shows i) → Visible c l log i

/-- A new directory reflects an empty log. -/
theorem exists_reflects (hc : 1 ≤ c) (hl : 1 ≤ l) :
    ∃ d : Directory α, make c l = .ok d ∧ Reflects c l [] d := by
  refine ⟨{ chunkLength := l, chunks := Array.replicate c none }, ?_, ?_⟩
  · rw [make, if_neg (by omega), if_neg (by omega)]
  · constructor
    case wellFormed => exact wellFormed_of_replicate hl rfl
    case chunkLength => rfl
    case chunkCount => exact Array.size_replicate
    case element => exact fun i => element_of_replicate rfl i
    case chunk =>
      intro p _
      rw [chunk?_of_replicate rfl]
      exact iff_of_false Bool.false_ne_true (Finset.notMem_empty p)
    case allocated => rfl
    case visible =>
      rintro i ⟨use, hmem, -⟩
      cases hmem

namespace Reflects

theorem capacity_eq (h : Reflects c l log d) : d.capacity = c * l := by
  rw [capacity, h.chunkCount, h.chunkLength]

theorem isSome_iff (h : Reflects c l log d) {i : Nat} (hi : i < c * l) :
    (d.chunk? (i / l)).isSome ↔ Visible c l log i := by
  rw [h.chunk _ (Nat.div_lt_of_lt_mul (Nat.mul_comm c l ▸ hi)), Visible]
  exact (and_iff_right hi).symm

theorem get?_eq (h : Reflects c l log d) (i : Nat) :
    d.get? i = if Visible c l log i then some (valueIn log i) else none := by
  rw [Directory.get?_eq h.wellFormed, h.capacity_eq, h.chunkLength, h.element]
  by_cases hi : i < c * l
  · simp only [hi, true_and, h.isSome_iff hi]
  · rw [if_neg fun hv => hi hv.1, if_neg fun hv => hi hv.1]

/-- A touch shows what the log says, and is refused beyond the array. -/
theorem touch_result (h : Reflects c l log d) (i : Nat) :
    (d.touch i).1 = if i < c * l then some (valueIn log i) else none := by
  rw [Directory.touch_result h.wellFormed, h.capacity_eq, h.element]

/-- An index that is not within the capacity, or whose chunk exists, leaves the directory alone. -/
theorem touch_state (h : Reflects c l log d) {i : Nat} (hi : c * l ≤ i ∨ Visible c l log i) :
    (d.touch i).2 = d := by
  rcases hi with hle | hv
  · rw [touch, split_of_le h.wellFormed (h.capacity_eq ▸ hle)]
  · rw [touch_state_of_lt (h.capacity_eq ▸ hv.1), h.chunkLength]
    exact touchChunk_of_isSome ((h.isSome_iff hv.1).mpr hv)

/-- What was shown, now or before, is visible. -/
theorem visible_snoc (h : Reflects c l log d)
    (hnew : ∀ i, use.Shows i → Visible c l (log ++ [use]) i) (i : Nat)
    (hi : ∃ u ∈ log ++ [use], u.Shows i) : Visible c l (log ++ [use]) i := by
  obtain ⟨u, hu, hshows⟩ := hi
  rcases List.mem_append.mp hu with hold | hlast
  · exact (h.visible i ⟨u, hold, hshows⟩).snoc use
  · obtain rfl := List.mem_singleton.mp hlast
    exact hnew i hshows

/-- A use that makes no chunk and writes nothing. -/
theorem unchanged (h : Reflects c l log d)
    (hchunks : touchedChunks c l (log ++ [use]) = touchedChunks c l log)
    (hvalue : ∀ i, use.value? i = none) (hnew : ∀ i, use.Shows i → Visible c l log i) :
    Reflects c l (log ++ [use]) d where
  wellFormed := h.wellFormed
  chunkLength := h.chunkLength
  chunkCount := h.chunkCount
  element i := by rw [valueIn_snoc, hvalue, Option.getD_none, h.element]
  chunk := by rw [hchunks]; exact h.chunk
  allocated := by rw [hchunks, h.allocated]
  visible := h.visible_snoc fun i hi => (hnew i hi).snoc use

/-- A use that makes a chunk. -/
theorem made (h : Reflects c l log d) {i : Nat} (hi : i < c * l) (hv : ¬ Visible c l log i)
    (shown : Option α) :
    Reflects c l (log ++ [.touched i shown]) (d.touchChunk (i / l)) := by
  have hp : i / l < c := Nat.div_lt_of_lt_mul (Nat.mul_comm c l ▸ hi)
  have hchunks : touchedChunks c l (log ++ [.touched i shown]) =
      insert (i / l) (touchedChunks c l log) :=
    touchedChunks_snoc_of_some (chunk?_touched_of_lt hi shown)
  have hnone : d.chunk? (i / l) = none :=
    Option.not_isSome_iff_eq_none.mp fun hs => hv ((h.isSome_iff hi).mp hs)
  constructor
  case wellFormed => exact h.wellFormed.touchChunk _
  case chunkLength => rw [chunkLength_touchChunk, h.chunkLength]
  case chunkCount => rw [chunkCount_touchChunk, h.chunkCount]
  case element =>
    intro j
    rw [element_touchChunk h.wellFormed, valueIn_snoc, h.element]
    rfl
  case chunk =>
    intro q hq
    rw [chunk?_touchChunk, hchunks, Finset.mem_insert, ← h.chunk q hq]
    by_cases hqp : q = i / l
    · simp [hqp, hnone, h.chunkCount, hp]
    · simp [hqp]
  case allocated =>
    rw [allocated_touchChunk (h.chunkCount.symm ▸ hp) hnone, hchunks, h.allocated,
      Finset.card_insert_of_notMem fun hmem => hv ⟨hi, hmem⟩]
  case visible =>
    refine h.visible_snoc ?_
    rintro j ⟨a, heq | heq⟩ <;> cases heq
    exact ⟨hi, hchunks ▸ Finset.mem_insert_self _ _⟩

/-- A touch keeps the directory true to the log. -/
theorem touched (h : Reflects c l log d) (i : Nat) :
    Reflects c l (log ++ [.touched i (d.touch i).1]) (d.touch i).2 := by
  by_cases hidle : c * l ≤ i ∨ Visible c l log i
  · rw [h.touch_state hidle]
    refine h.unchanged ?chunks (fun _ => rfl) ?shown
    case chunks =>
      rcases hidle with hle | hv
      · exact touchedChunks_snoc_of_none (chunk?_touched_of_le hle _)
      · rw [touchedChunks_snoc_of_some (chunk?_touched_of_lt hv.1 _),
          Finset.insert_eq_self.mpr hv.2]
    case shown =>
      rintro j ⟨a, heq | heq⟩
      · obtain ⟨rfl, hshown⟩ := Use.touched.inj heq
        refine hidle.resolve_left fun hle => ?_
        rw [h.touch_result, if_neg (Nat.not_lt.mpr hle)] at hshown
        cases hshown
      · cases heq
  · obtain ⟨hlt, hv⟩ := not_or.mp hidle
    rw [touch_state_of_lt (h.capacity_eq.symm ▸ Nat.not_le.mp hlt), h.chunkLength]
    exact h.made (Nat.not_le.mp hlt) hv _

/-- A look keeps the directory true to the log. -/
theorem found (h : Reflects c l log d) (i : Nat) :
    Reflects c l (log ++ [.found i (d.get? i)]) d := by
  refine h.unchanged (touchedChunks_snoc_of_none rfl) (fun _ => rfl) ?_
  rintro j ⟨a, heq | heq⟩
  · cases heq
  · obtain ⟨rfl, hget⟩ := Use.found.inj heq
    rw [h.get?_eq, Option.ite_none_right_eq_some] at hget
    exact hget.1

/-- A write keeps the directory true to the log. -/
theorem written (h : Reflects c l log d) {i : Nat} (hv : Visible c l log i) (a : α) :
    Reflects c l (log ++ [.written i a]) (d.set i a) := by
  have hlt : i < d.capacity := h.capacity_eq.symm ▸ hv.1
  have hget : (d.get? i).isSome := by rw [h.get?_eq, if_pos hv, Option.isSome_some]
  have hchunks : touchedChunks c l (log ++ [.written i a]) = touchedChunks c l log :=
    touchedChunks_snoc_of_none rfl
  constructor
  case wellFormed => exact h.wellFormed.set hlt a
  case chunkLength => rw [chunkLength_set, h.chunkLength]
  case chunkCount => rw [chunkCount_set, h.chunkCount]
  case element =>
    intro j
    rw [element_set h.wellFormed hget, valueIn_snoc, h.element, Use.value?]
    by_cases hji : j = i
    · rw [if_pos hji, if_pos hji.symm, Option.getD_some]
    · rw [if_neg hji, if_neg (Ne.symm hji), Option.getD_none]
  case chunk =>
    intro p hp
    rw [isSome_chunk?_set hlt, hchunks, h.chunk p hp]
  case allocated => rw [allocated_set, hchunks, h.allocated]
  case visible =>
    refine h.visible_snoc ?_
    rintro j ⟨b, heq | heq⟩ <;> cases heq

end Reflects

/-- **A directory is what its log says, after any uses.** -/
theorem Run.reflects {start : Directory α} (h : Run start log d) (hs : Reflects c l [] start) :
    Reflects c l log d := by
  induction h with
  | nil => exact hs
  | touch _ index ih => exact ih.touched index
  | get _ index ih => exact ih.found index
  | write _ held value ih => exact ih.written (ih.visible _ held) value

/-! ### One flat array -/

/-- After its uses, the directory is an array of `c * l` elements, of which the touched chunks are
visible. -/
structure FlatArray (c l : Nat) (log : List (Use α)) (d : Directory α) : Prop where
  capacity : d.capacity = c * l
  /-- Touching shows what was last written to an index within the capacity. -/
  touch : ∀ i, (d.touch i).1 = if i < c * l then some (valueIn log i) else none
  /-- So does looking, if the chunk of the index was touched. -/
  get : ∀ i, d.get? i = if i < c * l ∧ i / l ∈ touchedChunks c l log then some (valueIn log i)
    else none
  /-- No index shares its place with another, -/
  apart : ∀ i j, i < c * l → d.split i = d.split j → i = j
  /-- and writing to an element that was shown changes no other. -/
  write : ∀ i, (∃ use ∈ log, use.Shows i) → ∀ a j,
    (d.set i a).get? j = if j = i then some a else d.get? j
  /-- In order, the elements are those of the touched chunks. -/
  toList : d.toList =
    ((List.range (c * l)).filter fun i => i / l ∈ touchedChunks c l log).map (valueIn log)
  allocated : d.allocated = (touchedChunks c l log).card
  /-- Touching again, or behind the last element, changes nothing. -/
  idle : ∀ i, c * l ≤ i ∨ i / l ∈ touchedChunks c l log → (d.touch i).2 = d

/-- What a directory is that is true to a log. -/
theorem Reflects.flatArray (h : Reflects c l log d) : FlatArray c l log d := by
  constructor
  case capacity => exact h.capacity_eq
  case touch => exact h.touch_result
  case get => exact h.get?_eq
  case apart => exact fun i j hi heq => split_inj (h.capacity_eq.symm ▸ hi) heq
  case write =>
    intro i held a j
    have hv := h.visible i held
    have hset := h.written hv a
    -- a write touches no chunk
    have hsame : Visible c l (log ++ [.written i a]) j ↔ Visible c l log j := by
      rw [Visible, touchedChunks_snoc_of_none rfl, Visible]
    rw [hset.get?_eq, h.get?_eq, valueIn_snoc, Use.value?]
    by_cases hji : j = i
    · subst hji
      rw [if_pos (hsame.mpr hv), if_pos rfl, if_pos rfl, Option.getD_some]
    · simp only [hsame, if_neg hji, if_neg (Ne.symm hji), Option.getD_none]
  case toList =>
    rw [toList_eq h.wellFormed, h.capacity_eq]
    have hfilter : ((List.range (c * l)).filter fun i => (d.get? i).isSome) =
        (List.range (c * l)).filter fun i => i / l ∈ touchedChunks c l log := by
      refine List.filter_congr fun i hi => ?_
      rw [h.get?_eq]
      by_cases hmem : i / l ∈ touchedChunks c l log
      · rw [if_pos ⟨List.mem_range.mp hi, hmem⟩, decide_eq_true hmem, Option.isSome_some]
      · rw [if_neg fun hv => hmem hv.2, decide_eq_false hmem, Option.isSome_none]
    rw [hfilter]
    exact List.map_congr_left fun i _ => h.element i
  case allocated => exact h.allocated
  case idle =>
    intro i hi
    rcases Nat.lt_or_ge i (c * l) with hlt | hle
    · exact h.touch_state (hi.imp_right fun hmem => ⟨hlt, hmem⟩)
    · exact h.touch_state (.inl hle)

/-- A directory whose first chunk exists is one of which index 0 was touched. -/
theorem makeWithFirst_eq (c l : Nat) :
    (makeWithFirst c l : Except DimensionError (Directory α)) =
      (make c l).map fun d => (d.touch 0).2 := by
  unfold makeWithFirst make
  by_cases hc : c = 0
  · rw [if_pos hc]
    rfl
  · by_cases hl : l = 0
    · rw [if_neg hc, if_pos hl]
      rfl
    · have hcapacity : 0 < (⟨l, Array.replicate c none, 0, 0⟩ : Directory α).capacity := by
        rw [capacity, chunkCount, Array.size_replicate]
        exact Nat.mul_pos (Nat.pos_of_ne_zero hc) (Nat.pos_of_ne_zero hl)
      rw [if_neg hc, if_neg hl, Except.map, Except.map, touch_state_of_lt hcapacity, Nat.zero_div]

/-- **A directory is one flat array**, of which the chunks are visible that were touched. -/
theorem flat_array (hc : 1 ≤ c) (hl : 1 ≤ l) :
    ∃ start : Directory α, make c l = .ok start ∧ makeWithFirst c l = .ok (start.touch 0).2 ∧
      ∀ log d, Run start log d → FlatArray c l log d := by
  obtain ⟨start, hmake, hstart⟩ : ∃ start : Directory α, make c l = .ok start ∧
      Reflects c l [] start := exists_reflects hc hl
  refine ⟨start, hmake, ?_, fun log d h => (h.reflects hstart).flatArray⟩
  rw [makeWithFirst_eq, hmake]
  rfl

namespace Small

/-- A directory of four chunks of eight elements. -/
def start : Directory Nat := ⟨8, Array.replicate 4 none, 0, 0⟩

/-- Index 9 is touched, written to and looked up; an index of another chunk and one that is too large
show nothing. -/
def uses : List (Use Nat) :=
  [.touched 9 (some 0), .written 9 5, .found 9 (some 5), .found 0 none, .touched 32 none]

end Small

/-- Of four chunks of eight elements the second is visible, and holds 5 in its second place. -/
theorem flat_array_small : 1 ≤ 4 ∧ 1 ≤ 8 ∧ ∃ start d : Directory Nat, make 4 8 = .ok start ∧
    Run start Small.uses d ∧ d.toList = [0, 5, 0, 0, 0, 0, 0, 0] ∧ FlatArray 4 8 Small.uses d := by
  obtain ⟨start, hmake, -, hflat⟩ := @flat_array Nat 4 8 _ (by decide) (by decide)
  obtain rfl : Small.start = start := Except.ok.inj hmake
  have htouched := (Run.nil : Run Small.start [] Small.start).touch 9
  have hwritten := htouched.write
    ⟨_, List.mem_append_right _ (List.mem_singleton_self _), 0, .inl rfl⟩ 5
  have hrun := ((hwritten.get 9).get 0).touch 32
  exact ⟨by decide, by decide, _, _, hmake, hrun, by decide, hflat _ _ hrun⟩

end SharedSync.Directory
