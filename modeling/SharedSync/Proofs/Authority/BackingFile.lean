import Mathlib
import SharedSync.Proofs.Authority.History
import SharedSync.Proofs.Pool.Requests
import SharedSync.Proofs.Registry.Failures

/-!
# Authority — the backing file covers what was issued

While nothing fails and no client stores to it, the backing file holds the bounds of all
creations, in order, in whole pages of zeros.  A pool counts the same pages by itself, so the page
of a slot that was issued is in the file, and shows what the creation put there.

* `Backs size made file`: the file is what the creations `made` make of it.
* `Backs.snoc`: one more block keeps that; `Covered.answer`: so does a request, whatever it is.
* `file_covers_issued`: so it is after any series of requests.
-/

namespace SharedSync

open Limits (stateBlockBytes)

namespace PageSize

/-- The length of the file of `n` objects: whole pages, at least one. -/
def fileLength (size : PageSize) (n : Nat) : Nat :=
  size.bytes * max 1 (stateBlockBytes * n ⌈/⌉ size.bytes)

theorem ceilDiv_mono (size : PageSize) {a b : Nat} (h : a ≤ b) :
    a ⌈/⌉ size.bytes ≤ b ⌈/⌉ size.bytes :=
  (gc_mul_ceilDiv size.bytes_pos).monotone_l h

theorem fileLength_mono (size : PageSize) {m n : Nat} (h : m ≤ n) :
    size.fileLength m ≤ size.fileLength n :=
  Nat.mul_le_mul_left _ (max_le_max_left 1 (size.ceilDiv_mono (Nat.mul_le_mul_left _ h)))

example : PageSize.usual.fileLength 512 = 4096 ∧ PageSize.usual.fileLength 513 = 8192 := by
  decide

/-- The file of `n + 1` objects is that of `n`, grown to the end of the page of the last block. -/
theorem fileLength_succ (size : PageSize) (n : Nat) :
    size.fileLength (n + 1) =
      max (size.fileLength n) (size.bytes * (stateBlockBytes * (n + 1) ⌈/⌉ size.bytes)) := by
  have hle := size.ceilDiv_mono (Nat.mul_le_mul_left stateBlockBytes (Nat.le_succ n))
  rw [fileLength, fileLength, Nat.mul_max_mul_left, max_assoc, max_eq_right hle]

theorem blocks_le_fileLength (size : PageSize) (n : Nat) :
    stateBlockBytes * n ≤ size.fileLength n := by
  have hle : stateBlockBytes * n ≤ size.bytes * (stateBlockBytes * n ⌈/⌉ size.bytes) :=
    (ceilDiv_le_iff_le_mul size.bytes_pos).mp le_rfl
  exact hle.trans (Nat.mul_le_mul_left _ (le_max_right _ _))

/-- The file holds the whole pages of its blocks. -/
theorem page_le_fileLength (size : PageSize) {slot : Slot} {n : Nat}
    (h : slot.number.toNat < n) : (size.pageOf slot + 1) * size.bytes ≤ size.fileLength n := by
  have hbyte : slot.byteOffset < size.fileLength n := by
    refine Nat.lt_of_lt_of_le ?_ (size.blocks_le_fileLength n)
    rw [Slot.byteOffset, Nat.mul_comm]
    exact Nat.mul_lt_mul_of_pos_left h (by decide)
  rw [Nat.mul_comm]
  exact Nat.mul_le_mul_left _ (Nat.div_lt_of_lt_mul hbyte)

end PageSize

namespace Registry

open FileContents (byte_store_of_lt byte_store_of_le)

/-! ### The file of a series of creations -/

/-- The file holds a block for each request, in order, and is zero behind them. -/
structure Backs (size : PageSize) (made : List CreateRequest) (file : FileContents) : Prop where
  size_eq : file.size = size.fileLength made.length
  blocks : ∀ (i : Nat) (request : CreateRequest), made[i]? = some request →
    file.bytesAt (stateBlockBytes * i) stateBlockBytes = writeBlock.block request
  zeros : ∀ offset, stateBlockBytes * made.length ≤ offset → file.byte offset = 0

variable {size : PageSize} {made : List CreateRequest} {file : FileContents} {r : Registry}
  {slot : Slot}

/-- A new file of one page backs no block yet. -/
theorem backs_zeros (size : PageSize) : Backs size [] (.zeros size.bytes) where
  size_eq := by
    rw [PageSize.fileLength, List.length_nil, Nat.mul_zero, zero_ceilDiv]
    exact (Nat.mul_one _).symm
  blocks i request h := absurd h nofun
  zeros offset _ := Std.TreeMap.getD_emptyc

theorem lengthFor_eq (hs : slot.number.toNat = made.length) :
    r.lengthFor slot =
      r.pageSize.bytes * (stateBlockBytes * (made.length + 1) ⌈/⌉ r.pageSize.bytes) := by
  rw [lengthFor, Slot.byteOffset, hs, ← Nat.succ_mul, Nat.mul_comm made.length.succ, Nat.mul_comm]
  rfl

theorem length_block (request : CreateRequest) :
    (writeBlock.block request).length = stateBlockBytes := by
  rw [writeBlock.block, List.length_append, Words.length_leInt32, Words.length_leInt32]
  rfl

/-- What a file grows by is zero, and what was behind its end was. -/
theorem Backs.byte_grown (h : Backs r.pageSize made r.file) (slot : Slot) (offset : Nat) :
    (writeBlock.grown r slot).byte offset = r.file.byte offset := by
  unfold writeBlock.grown
  split
  · next hlt =>
      rw [FileContents.byte_resize, Nat.min_eq_left hlt.le]
      split
      · rfl
      · next hge =>
          have hend : r.file.size ≤ offset := Nat.not_lt.mp hge
          rw [h.size_eq] at hend
          exact (h.zeros _ ((r.pageSize.blocks_le_fileLength _).trans hend)).symm
  · rfl

/-- One more block keeps the file what the creations make of it. -/
theorem Backs.snoc (h : Backs r.pageSize made r.file) (hs : slot.number.toNat = made.length)
    (request : CreateRequest) :
    Backs r.pageSize (made ++ [request]) (r.writeBlock slot request none).2 := by
  have hoff : slot.byteOffset = stateBlockBytes * made.length := by
    rw [Slot.byteOffset, hs, Nat.mul_comm]
  have hsize : (writeBlock.grown r slot).size = r.pageSize.fileLength (made.length + 1) := by
    rw [size_grown, h.size_eq, lengthFor_eq hs, PageSize.fileLength_succ]
  have hwithin : slot.byteOffset + (writeBlock.block request).length ≤
      (writeBlock.grown r slot).size := by
    rw [length_block]
    exact (block_le_lengthFor r slot).trans (lengthFor_le_size_grown r slot)
  have hfile : (r.writeBlock slot request none).2 =
      (writeBlock.grown r slot).store slot.byteOffset (writeBlock.block request) :=
    FileContents.write_of_le hwithin
  rw [hfile]
  constructor
  case size_eq => rw [FileContents.size_store, hsize, List.length_append, List.length_singleton]
  case blocks =>
    intro i other hi
    -- an older block is in front of what is stored, and the new one is just that
    rcases Nat.lt_trichotomy i made.length with hlt | rfl | hgt
    · rw [List.getElem?_append_left hlt] at hi
      rw [← h.blocks i other hi]
      refine FileContents.bytesAt_congr fun k hk => ?_
      rw [byte_store_of_lt _ _ (by simp only [hoff, stateBlockBytes] at hk ⊢; omega),
        h.byte_grown]
    · rw [List.getElem?_concat_length] at hi
      obtain rfl := Option.some.inj hi
      rw [← hoff, ← length_block request]
      exact FileContents.bytesAt_store _ _ _
    · rw [List.getElem?_eq_none (by rw [List.length_append, List.length_singleton]; omega)] at hi
      cases hi
  case zeros =>
    intro offset hle
    rw [List.length_append, List.length_singleton, Nat.mul_add, Nat.mul_one] at hle
    have hbehind : slot.byteOffset + (writeBlock.block request).length ≤ offset := by
      rw [hoff, length_block]
      exact hle
    rw [byte_store_of_le _ hbehind, h.byte_grown]
    exact h.zeros _ ((Nat.le_add_right _ _).trans hle)

/-- A request that made no object left the registry as it was. -/
theorem Creation.eq_of_unmade {request : CreateRequest} {reply : Reply} {r' : Registry}
    (h : Creation r request (.ok reply) r') (hs : reply.status ≠ .success) : r' = r := by
  cases h with
  | invalid | opened | exhausted => rfl
  | made => exact absurd rfl hs

/-- What a successful creation leaves: the next slot, and its two words in the file. -/
theorem create_made {request : CreateRequest} {reply : Reply}
    (h : (r.create request).result = .ok reply) (hs : reply.status = .success) :
    ∃ slot : Slot, slot.number.toNat = r.objects.size ∧ IsValid request ∧
      (r.create request).state.pageSize = r.pageSize ∧
      (r.create request).state.file = (r.writeBlock slot request none).2 := by
  obtain ⟨slot, handle, hreaches, -, -⟩ := reaches_of_success h hs
  refine ⟨slot, (issue?_eq_some hreaches.issued).1, hreaches.valid, ?_⟩
  rw [create_of_reaches hreaches]
  exact ⟨rfl, rfl⟩

end Registry

/-! ### The file of an authority -/

namespace MemoryAuthority

open Registry (Reflects Backs creation? creations mem_creations)

variable {size : PageSize} {past : List (Request × Reply)} {r r' : Registry} {request : Request}
  {reply : Reply} {events : List Event}

/-- The reply is that of a creation, but for its status. -/
def Original (past : List (Request × Reply)) (reply : Reply) : Prop :=
  ∃ c ∈ creations past, reply = { c.2 with status := reply.status }

/-- The registry reflects its past, and so does its file. -/
structure Covered (size : PageSize) (r : Registry) (past : List (Request × Reply)) : Prop where
  reflects : Reflects r past
  pageSize : r.pageSize = size
  backs : Backs size ((creations past).map Prod.fst) r.file
  valid : ∀ c ∈ creations past, c.1.AsksSemaphore
  original : ∀ exchange ∈ past, exchange.2.status.yieldsObject → Original past exchange.2

/-- A new backing file covers an empty past. -/
theorem covered_start (path : Path) (size : PageSize) (firstIndex : UInt32) :
    Covered size (.start path size firstIndex) [] where
  reflects := Registry.reflects_start path size firstIndex
  pageSize := rfl
  backs := Registry.backs_zeros size
  valid _ hc := absurd hc List.not_mem_nil
  original _ hx := absurd hx List.not_mem_nil

/-- What was original stays so, whatever is asked behind it. -/
theorem Original.snoc (h : Original past reply) (exchange : Request × Reply) :
    Original (past ++ [exchange]) reply := by
  obtain ⟨c, hc, hreply⟩ := h
  exact ⟨c, Registry.creations_append past _ ▸ List.mem_append_left _ hc, hreply⟩

/-- An answer with an object has an original creation behind it. -/
theorem original_answer (h : Reflects r past)
    (ha : authority.answer request ⟨some r⟩ = ⟨.ok reply, ⟨some r'⟩, events⟩)
    (h' : Reflects r' (past ++ [(request, reply)])) (hs : reply.status.yieldsObject) :
    Original (past ++ [(request, reply)]) reply := by
  have hlast : (request, reply) ∈ past ++ [(request, reply)] :=
    List.mem_append_right _ (List.mem_singleton_self _)
  cases request with
  | create request =>
      by_cases hmade : reply.status = .success
      · exact ⟨(request, reply), mem_creations.mpr ⟨hlast, hmade⟩, rfl⟩
      · have hopened := (Status.yieldsObject_iff.mp hs).resolve_left hmade
        obtain ⟨c, hc, name, -, -, hreply⟩ := h'.opened request reply hlast hopened
        exact ⟨c, hc, hopened ▸ hreply⟩
  | query handle =>
      obtain rfl : r.query handle = reply := Except.ok.inj (congrArg Outcome.result ha)
      have hanswer := h.answersQuery handle
      by_cases hfound : (r.query handle).status = .success
      · obtain ⟨c, hc, hhandle⟩ := hanswer.found.mp hfound
        refine Original.snoc ⟨c, hc, ?_⟩ _
        rw [hanswer.object c hc hhandle]
      · rw [hanswer.unknown hfound] at hs
        cases hs

/-- A request made an object, and wrote the next block of the file, or changed nothing. -/
theorem made_or_unmade (ha : authority.answer request ⟨some r⟩ = ⟨.ok reply, ⟨some r'⟩, events⟩) :
    (∃ (create : CreateRequest) (slot : Slot), creation? (request, reply) = some (create, reply) ∧
      slot.number.toNat = r.objects.size ∧ create.AsksSemaphore ∧ r'.pageSize = r.pageSize ∧
        r'.file = (r.writeBlock slot create none).2) ∨
      creation? (request, reply) = none ∧ r' = r := by
  cases request with
  | query handle =>
      have hstate := congrArg (registry ∘ Outcome.state) ha
      exact .inr ⟨rfl, (Option.some.inj hstate).symm⟩
  | create create =>
      have hresult : (r.create create).result = .ok reply := congrArg Outcome.result ha
      have hstate := congrArg (registry ∘ Outcome.state) ha
      obtain rfl : (r.create create).state = r' := Option.some.inj hstate
      by_cases hs : reply.status = .success
      · obtain ⟨slot, hslot, hvalid, hpage, hfile⟩ := Registry.create_made hresult hs
        exact .inl ⟨create, slot, if_pos hs, hslot, Registry.isValid_iff.mp hvalid, hpage, hfile⟩
      · have hcreation := Registry.creation_create r create none
        rw [hresult] at hcreation
        exact .inr ⟨if_neg hs, hcreation.eq_of_unmade hs⟩

/-- **One more request keeps the file what its past makes of it.** -/
theorem Covered.answer (h : Covered size r past) (request : Request) : ∃ reply r' events,
    authority.answer request ⟨some r⟩ = ⟨.ok reply, ⟨some r'⟩, events⟩ ∧
      Covered size r' (past ++ [(request, reply)]) := by
  obtain ⟨reply, r', events, ha, -, h'⟩ := answer_reflected h.reflects request
  refine ⟨reply, r', events, ha, ?_⟩
  have horiginal : ∀ exchange ∈ past ++ [(request, reply)], exchange.2.status.yieldsObject →
      Original (past ++ [(request, reply)]) exchange.2 := by
    intro exchange hx hs
    rcases List.mem_append.mp hx with hx | hx
    · exact (h.original exchange hx hs).snoc _
    · obtain rfl := List.mem_singleton.mp hx
      exact original_answer h.reflects ha h' hs
  have hcreations := Registry.creations_snoc past (request, reply)
  obtain rfl := h.pageSize
  -- only a creation that makes an object changes the file
  rcases made_or_unmade ha with ⟨create, slot, hmade, hslot, hasks, hpage, hfile⟩ | ⟨hunmade, rfl⟩
  · rw [hmade, Option.toList_some] at hcreations
    constructor
    case reflects => exact h'
    case pageSize => exact hpage
    case backs =>
      have hnumber : slot.number.toNat = ((creations past).map Prod.fst).length := by
        rw [hslot, List.length_map, h.reflects.length_eq]
      rw [hcreations, List.map_append, hfile]
      exact h.backs.snoc hnumber create
    case valid =>
      intro c hc
      rw [hcreations] at hc
      rcases List.mem_append.mp hc with hc | hc
      · exact h.valid c hc
      · obtain rfl := List.mem_singleton.mp hc
        exact hasks
    case original => exact horiginal
  · rw [hunmade, Option.toList_none, List.append_nil] at hcreations
    exact ⟨h', rfl, hcreations ▸ h.backs, hcreations ▸ h.valid, horiginal⟩

/-! ### What pools show of the file -/

/-- The block of a creation reads as the bounds that it asked for. -/
theorem Covered.words (h : Covered size r past) {c : CreateRequest × Reply}
    (hc : c ∈ creations past) {block : StateBlock}
    (hb : block.fileOffset = c.2.slot.byteOffset) :
    (block.words r.file).count = c.1.low ∧ (block.words r.file).max = c.1.high := by
  have hbytes := h.backs.blocks c.2.slot.number.toNat c.1 (by
    rw [List.getElem?_map, h.reflects.getElem?_slot hc, Option.map_some])
  rw [Nat.mul_comm, ← Slot.byteOffset, ← hb] at hbytes
  obtain ⟨hlow, hhigh⟩ := FileContents.words_of_bytesAt hbytes
  simp only [BlockWords.count, BlockWords.max, StateBlock.words, StateBlock.word,
    BlockWord.byteOffset, Nat.add_zero, hlow, hhigh, Int32.toInt32_toUInt32, and_self]

/-- What a series of exchanges makes of a file with pages of this size. -/
structure CoversIssued (size : PageSize) (past : List (Request × Reply)) (file : FileContents) :
    Prop where
  size_eq : file.size =
    size.bytes * max 1 (stateBlockBytes * (creations past).length ⌈/⌉ size.bytes)
  blocks : ∀ (i : Nat) (c : CreateRequest × Reply), (creations past)[i]? = some c →
    file.bytesAt (stateBlockBytes * i) stateBlockBytes =
      Words.leInt32 c.1.low ++ Words.leInt32 c.1.high
  bounds : ∀ c ∈ creations past, 0 ≤ c.1.low ∧ c.1.low ≤ c.1.high ∧ 0 < c.1.high
  zeros : ∀ offset, stateBlockBytes * (creations past).length ≤ offset → file.byte offset = 0
  /-- A reply with an object has the slot of a creation.  Wherever a pool shows that slot, the whole
  page is in the file, and the block reads as the creation left it. -/
  shown : ∀ exchange ∈ past,
    exchange.2.status = .success ∨ exchange.2.status = .objectNameExists →
      ∃ c, (creations past)[exchange.2.slot.number.toNat]? = some c ∧
        exchange.2 = { c.2 with status := exchange.2.status } ∧
        ∀ (openFile : OpenFile) (path : Path) (calls : List Pool.Call) (map : Mapper)
          (block : StateBlock),
          (((Pool.ofFile openFile path size).result.serve calls).block map
              exchange.2.slot).result = some block →
            block.mapping.fileOffset + block.mapping.length ≤ file.size ∧
              (block.words file).count = c.1.low ∧ (block.words file).max = c.1.high

/-- What the invariant says of the blocks that were issued. -/
theorem Covered.coversIssued (h : Covered size r past) : CoversIssued size past r.file := by
  have hsize := h.backs.size_eq
  rw [List.length_map] at hsize
  constructor
  case size_eq => exact hsize
  case blocks =>
    intro i c hc
    exact h.backs.blocks i c.1 (by rw [List.getElem?_map, hc, Option.map_some])
  case bounds => exact fun c hc => (h.valid c hc).2
  case zeros =>
    intro offset hle
    exact h.backs.zeros offset (by rwa [List.length_map])
  case shown =>
    intro exchange hx hs
    obtain ⟨c, hc, hreply⟩ := h.original exchange hx (Status.yieldsObject_iff.mpr hs)
    have hslot : exchange.2.slot = c.2.slot := by rw [hreply]
    have hcreation := h.reflects.getElem?_slot hc
    rw [hslot]
    refine ⟨c, hcreation, hreply, ?_⟩
    intro openFile path calls map block hb
    obtain ⟨hplaces, hoffset⟩ := Pool.served_places hb
    refine ⟨?_, h.words hc hoffset⟩
    rw [hplaces.fileOffset, hplaces.length, ← Nat.add_one_mul, hsize]
    exact size.page_le_fileLength (List.getElem?_eq_some_iff.mp hcreation).1

/-- **The backing file covers what was issued.** -/
theorem file_covers_issued (path : Path) (size : PageSize) (firstIndex : UInt32)
    (requests : List Request) : ∃ (replies : List Reply) (r : Registry),
      authority.replies requests ⟨some (.start path size firstIndex)⟩ =
        (replies.map .ok, ⟨some r⟩) ∧
      replies.length = requests.length ∧ CoversIssued size (requests.zip replies) r.file ∧
      ∀ more, ∃ (later : List Reply) (r' : Registry),
        authority.replies more ⟨some r⟩ = (later.map .ok, ⟨some r'⟩) ∧
        r.file.size ≤ r'.file.size := by
  obtain ⟨replies, r, hreplies, hlen, h⟩ :=
    replies_kept Covered.answer (covered_start path size firstIndex) requests
  rw [List.nil_append] at h
  refine ⟨replies, r, hreplies, hlen, h.coversIssued, ?_⟩
  intro more
  obtain ⟨later, r', hlater, -, h'⟩ := replies_kept Covered.answer h more
  refine ⟨later, r', hlater, ?_⟩
  rw [h.backs.size_eq, h'.backs.size_eq]
  refine size.fileLength_mono ?_
  rw [List.length_map, List.length_map, Registry.creations_append, List.length_append]
  exact Nat.le_add_right _ _

end MemoryAuthority

end SharedSync
