import SharedSync.Proofs.Wire.Grammar

/-!
# Wire — what a reply carries

A reply is four words, and every four words are one (`exists_written`).  Handle, slot and type are
carried as they are.  A status is carried by its code: of all statuses only those are read as another
that have no name but a code with one (`Shadowed`).

* `isSome_decode?_iff`: sixteen bytes are a reply, and nothing else is.
* `encode_of_decode?`: the reply is written as the bytes that it was read from.
* `decode?_encode_iff`: it is read as itself unless its status is shadowed.
* `verbatim`: the three together.
-/

namespace SharedSync

namespace Status

variable {s t : Status} {c : UInt32}

/-- The status is a code that stands for a named one. -/
def Shadowed (s : Status) : Prop := ∃ c, s = .other c ∧ ∃ t ∈ named, t.code = c

theorem not_shadowed_of_isNamed (h : s.isNamed) : ¬ s.Shadowed := by
  rintro ⟨c, rfl, -⟩
  cases h

/-- A status comes back just if no named one has its code. -/
theorem ofCode_code_iff_not_shadowed : ofCode s.code = s ↔ ¬ s.Shadowed := by
  rw [ofCode_code_iff]
  cases s with
  | other c =>
      constructor
      · rintro (h | h) ⟨_, ⟨⟩, t, ht, hc⟩
        · cases h
        · exact h t ht hc
      · exact fun h => .inr fun t ht hc => h ⟨c, rfl, t, ht, hc⟩
  | _ => exact iff_of_true (.inl rfl) (not_shadowed_of_isNamed rfl)

/-- The code of a named status is read as that status. -/
theorem ofCode_of_mem_named (h : t ∈ named) (hc : t.code = c) : ofCode c = t := by
  rw [← hc, ofCode_code_of_isNamed (isNamed_of_mem_named h)]

end Status

namespace Reply

open Words (wordAt le32_wordAt)

variable {b : Bytes} {r : Reply}

/-- **Every sixteen bytes are four words.** -/
theorem exists_written (h : b.length = bytes) :
    ∃ status handle slot type, b = written status handle slot type := by
  rw [bytes] at h
  have hend : b.drop (12 + 4) = [] := List.drop_eq_nil_of_le (Nat.le_of_eq h)
  refine ⟨wordAt b 0, wordAt b 4, wordAt b 8, wordAt b 12, ?_⟩
  calc b
      = b.drop 0 := List.drop_zero.symm
    _ = Words.le32 (wordAt b 0) ++ (Words.le32 (wordAt b 4) ++ (Words.le32 (wordAt b 8) ++
          (Words.le32 (wordAt b 12) ++ b.drop (12 + 4)))) := by
        rw [le32_wordAt (by omega), le32_wordAt (by omega), le32_wordAt (by omega),
          le32_wordAt (by omega)]
    _ = written (wordAt b 0) (wordAt b 4) (wordAt b 8) (wordAt b 12) := by
        rw [hend, List.append_nil, written]

theorem encode_ofWords (status handle slot type : UInt32) :
    (ofWords status handle slot type).encode = written status handle slot type := by
  rw [encode_eq, ofWords, Status.code_ofCode, Handle.rawOr0_ofRaw?]

/-- **A payload is a reply just if it has sixteen bytes.** -/
theorem isSome_decode?_iff : (decode? b).isSome ↔ b.length = bytes := by
  constructor
  · intro h
    obtain ⟨r, hr⟩ := Option.isSome_iff_exists.mp h
    exact length_of_decode? hr
  · intro h
    obtain ⟨status, handle, slot, type, rfl⟩ := exists_written h
    rw [decode?_written, Option.isSome_some]

/-- **A reply is written as the bytes that it was read from.** -/
theorem encode_of_decode? (h : decode? b = some r) : r.encode = b := by
  obtain ⟨status, handle, slot, type, rfl⟩ := exists_written (length_of_decode? h)
  rw [decode?_written] at h
  rw [← Option.some.inj h, encode_ofWords]

/-- A reply comes back just if its status does. -/
theorem decode?_encode_iff : decode? r.encode = some r ↔ ¬ r.status.Shadowed := by
  rw [decode?_encode_eq, Option.some.injEq, ← Status.ofCode_code_iff_not_shadowed]
  constructor
  · exact congrArg Reply.status
  · intro h
    rw [h]

/-- Instead of a code that stands for a named status, that status is read. -/
theorem decode?_encode_of_other {c : UInt32} {t : Status} (h : r.status = .other c)
    (ht : t ∈ Status.named) (hc : t.code = c) :
    decode? r.encode = some { r with status := t } := by
  rw [decode?_encode_eq, h, Status.code, Status.ofCode_of_mem_named ht hc]

/-- What is read of a payload, and of a reply that was written. -/
structure Verbatim (b : Bytes) (r : Reply) : Prop where
  /-- The payload is a reply exactly if it has sixteen bytes, -/
  readable : (decode? b).isSome ↔ b.length = 16
  /-- of which none is lost. -/
  rewritten : ∀ found, decode? b = some found → found.encode = b
  /-- The reply is read as itself unless its status is a code that stands for a named one, -/
  arrives : decode? r.encode = some r ↔ ¬ r.status.Shadowed
  /-- for which that is read then. -/
  named : ∀ c t, r.status = .other c → t ∈ Status.named → t.code = c →
    decode? r.encode = some { r with status := t }

/-- Every payload and every reply, in both directions. -/
theorem verbatim (b : Bytes) (r : Reply) : Verbatim b r where
  readable := isSome_decode?_iff
  rewritten _ := encode_of_decode?
  arrives := decode?_encode_iff
  named _ _ := decode?_encode_of_other

end Reply

end SharedSync
