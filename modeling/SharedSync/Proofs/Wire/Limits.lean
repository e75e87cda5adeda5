import SharedSync.Authority.Client
import SharedSync.Proofs.Wire.RoundTrip

/-!
# Wire — which create requests can be sent

Three limits stand between a request and its payload: a name has at most 32767 units, and the
descriptor and the whole block of attributes have lengths that fit 32 bits.  They are checked in
this order (`Exceeds`), and nothing else is.

* `encode_eq_error_iff`: a request is refused with the first limit that its attributes exceed.
* `encode_eq_ok_iff`: every other request has its payload.
* `sent_unless_exceeding`: which arrives as the request that was sent, but for an empty name.
-/

namespace SharedSync

namespace ObjectAttributes

/-- The first limit that the attributes exceed. -/
inductive Exceeds (a : ObjectAttributes) : AttributesFault → Prop where
  | name (long : Limits.maxNameUnits < a.nameUnits.length) :
      Exceeds a (.nameTooLong a.nameUnits.length)
  | descriptor (name : a.nameUnits.length ≤ Limits.maxNameUnits)
      (large : lengthBound ≤ a.descriptor.length) : Exceeds a .descriptorTooLarge
  | block (name : a.nameUnits.length ≤ Limits.maxNameUnits)
      (descriptor : a.descriptor.length < lengthBound) (large : lengthBound ≤ a.block.length) :
      Exceeds a .blockTooLarge

variable {a : ObjectAttributes}

/-- The check is for the length of the name alone. -/
theorem validate_eq_ok_iff :
    a.validate = .ok () ↔ a.nameUnits.length ≤ Limits.maxNameUnits := by
  unfold validate
  by_cases h : Limits.maxNameUnits < a.nameUnits.length
  · rw [if_pos h]
    exact iff_of_false nofun (Nat.not_le.mpr h)
  · rw [if_neg h]
    exact iff_of_true rfl (Nat.not_lt.mp h)

theorem encode_of_name (h : Limits.maxNameUnits < a.nameUnits.length) :
    a.encode = .error (.nameTooLong a.nameUnits.length) := by
  simp only [encode, validate, if_pos h]

theorem encode_of_descriptor (name : a.nameUnits.length ≤ Limits.maxNameUnits)
    (h : lengthBound ≤ a.descriptor.length) : a.encode = .error .descriptorTooLarge := by
  simp only [encode, validate_eq_ok_iff.mpr name, if_pos h]

theorem encode_of_within (name : a.nameUnits.length ≤ Limits.maxNameUnits)
    (descriptor : a.descriptor.length < lengthBound) : a.encode = .ok a.block := by
  simp only [encode, validate_eq_ok_iff.mpr name, if_neg (Nat.not_le.mpr descriptor)]

/-- The limits, whichever fails first. -/
theorem exists_exceeds_iff : (∃ fault, a.Exceeds fault) ↔
    Limits.maxNameUnits < a.nameUnits.length ∨ lengthBound ≤ a.descriptor.length ∨
      lengthBound ≤ a.block.length := by
  constructor
  · rintro ⟨fault, long | ⟨-, large⟩ | ⟨-, -, large⟩⟩
    · exact .inl long
    · exact .inr (.inl large)
    · exact .inr (.inr large)
  · intro h
    rcases Nat.lt_or_ge Limits.maxNameUnits a.nameUnits.length with long | name
    · exact ⟨_, .name long⟩
    · rcases Nat.lt_or_ge a.descriptor.length lengthBound with descriptor | large
      · have block : lengthBound ≤ a.block.length := by omega
        exact ⟨_, .block name descriptor block⟩
      · exact ⟨_, .descriptor name large⟩

/-- Only the first limit that is exceeded is reported. -/
theorem Exceeds.unique {fault other : AttributesFault} (h : a.Exceeds fault)
    (h' : a.Exceeds other) : fault = other := by
  cases h with
  | name long =>
      cases h' with
      | name => rfl
      | descriptor name => exact absurd name (Nat.not_le.mpr long)
      | block name => exact absurd name (Nat.not_le.mpr long)
  | descriptor name large =>
      cases h' with
      | name long => exact absurd name (Nat.not_le.mpr long)
      | descriptor => rfl
      | block _ descriptor => exact absurd descriptor (Nat.not_lt.mpr large)
  | block name descriptor =>
      cases h' with
      | name long => exact absurd name (Nat.not_le.mpr long)
      | descriptor _ large => exact absurd descriptor (Nat.not_lt.mpr large)
      | block => rfl

end ObjectAttributes

namespace CreateRequest

open ObjectAttributes (lengthBound fixedBytes)

variable {r : CreateRequest} {bytes : Bytes}

theorem block_of_none (h : r.attributes = none) : r.block = [] := by rw [block, h]; rfl

theorem block_of_some {a : ObjectAttributes} (h : r.attributes = some a) : r.block = a.block := by
  rw [block, h]
  rfl

/-- A payload is what is in front of the block, and the block. -/
theorem encode_of_block {found : Bytes}
    (h : r.attributes.elim (.ok []) ObjectAttributes.encode = .ok found) : r.encode =
      if lengthBound ≤ r.block.length then .error .blockTooLarge
      else .ok (r.front r.block.length ++ r.block) := by
  obtain rfl := block_eq_of_encode h
  simp only [encode, h, front, List.append_assoc]

/-- Every request is sent, or refused for its attributes. -/
theorem encode_cases (r : CreateRequest) :
    (∃ fault a, r.attributes = some a ∧ a.Exceeds fault ∧ r.encode = .error fault) ∨
      (∀ a fault, r.attributes = some a → ¬ a.Exceeds fault) ∧
        r.encode = .ok (r.front r.block.length ++ r.block) := by
  cases hr : r.attributes with
  | none =>
      refine .inr ⟨nofun, ?_⟩
      have hfound : r.attributes.elim (.ok []) ObjectAttributes.encode = .ok [] := by rw [hr]; rfl
      rw [encode_of_block hfound, block_of_none hr, if_neg (by decide)]
  | some a =>
      have helim : r.attributes.elim (.ok []) ObjectAttributes.encode = a.encode := by rw [hr]; rfl
      rcases Nat.lt_or_ge Limits.maxNameUnits a.nameUnits.length with long | name
      · refine .inl ⟨_, a, rfl, .name long, ?_⟩
        simp only [encode, helim, ObjectAttributes.encode_of_name long]
      rcases Nat.lt_or_ge a.descriptor.length lengthBound with descriptor | large
      · have hencode :=
          encode_of_block (helim.trans (ObjectAttributes.encode_of_within name descriptor))
        rcases Nat.lt_or_ge r.block.length lengthBound with fits | large
        · refine .inr ⟨?_, by rw [hencode, if_neg (Nat.not_le.mpr fits)]⟩
          rintro _ fault ⟨⟩ exceeds
          rw [block_of_some hr] at fits
          rcases ObjectAttributes.exists_exceeds_iff.mp ⟨fault, exceeds⟩ with long | large | large
          · exact Nat.not_lt.mpr name long
          · exact Nat.not_lt.mpr large descriptor
          · exact Nat.not_lt.mpr large fits
        · refine .inl ⟨_, a, rfl, .block name descriptor (block_of_some hr ▸ large), ?_⟩
          rw [hencode, if_pos large]
      · refine .inl ⟨_, a, rfl, .descriptor name large, ?_⟩
        simp only [encode, helim, ObjectAttributes.encode_of_descriptor name large]

/-- **A request is refused with the first limit that its attributes exceed.** -/
theorem encode_eq_error_iff {fault : AttributesFault} :
    r.encode = .error fault ↔ ∃ a, r.attributes = some a ∧ a.Exceeds fault := by
  rcases encode_cases r with ⟨first, a, ha, hfirst, hencode⟩ | ⟨within, hencode⟩
  · rw [hencode]
    constructor
    · rintro ⟨⟩
      exact ⟨a, ha, hfirst⟩
    · rintro ⟨a', ha', h⟩
      obtain rfl := Option.some.inj (ha.symm.trans ha')
      rw [hfirst.unique h]
  · rw [hencode]
    refine iff_of_false nofun ?_
    rintro ⟨a, ha, h⟩
    exact within a fault ha h

/-- **Every other request has its payload.** -/
theorem encode_eq_ok_iff : r.encode = .ok bytes ↔
    (∀ a fault, r.attributes = some a → ¬ a.Exceeds fault) ∧
      bytes = r.front r.block.length ++ r.block := by
  rcases encode_cases r with ⟨first, a, ha, hfirst, hencode⟩ | ⟨within, hencode⟩
  · rw [hencode]
    exact iff_of_false nofun fun h => h.1 a first ha hfirst
  · rw [hencode]
    constructor
    · rintro ⟨⟩
      exact ⟨within, rfl⟩
    · rintro ⟨-, rfl⟩
      rfl

/-- Some limit is exceeded. -/
def Exceeding (r : CreateRequest) : Prop :=
  ∃ a, r.attributes = some a ∧
    (Limits.maxNameUnits < a.nameUnits.length ∨ lengthBound ≤ a.descriptor.length ∨
      lengthBound ≤ fixedBytes + a.descriptor.length + 2 * a.nameUnits.length)

/-- A request fails to encode just if it exceeds some limit. -/
theorem exists_error_iff : (∃ fault, r.encode = .error fault) ↔ r.Exceeding := by
  simp only [encode_eq_error_iff, Exceeding, ← ObjectAttributes.length_block,
    ← ObjectAttributes.exists_exceeds_iff]
  constructor
  · rintro ⟨fault, a, ha, h⟩
    exact ⟨a, ha, fault, h⟩
  · rintro ⟨a, ha, fault, h⟩
    exact ⟨fault, a, ha, h⟩

/-- **A request is sent unless it exceeds a limit**, and then arrives as it was sent, but for an
empty name, which arrives as no name; in particular it has attributes when it had some, be they
empty.  A client whose request exceeds a limit reports the first that it does, and sends nothing. -/
theorem sent_unless_exceeding (r : CreateRequest) :
    ((∃ fault, r.encode = .error fault) ↔ r.Exceeding) ∧
    (∀ fault, r.encode = .error fault → (∃ a, r.attributes = some a ∧ a.Exceeds fault) ∧
      ∀ c : Client Stream, (Client.authority Stream.transport).create r c =
        ⟨.error (.invalidAttributes fault), c, []⟩) ∧
    (¬ r.Exceeding → ∃ bytes, r.encode = .ok bytes ∧ decode? bytes = some r.normal) ∧
    (r.normal.attributes = none ↔ r.attributes = none) := by
  refine ⟨exists_error_iff, fun fault h => ⟨encode_eq_error_iff.mp h, fun c => ?_⟩, fun h => ?_, ?_⟩
  · simp only [Client.authority, h]
  · cases he : r.encode with
    | error fault => exact absurd (exists_error_iff.mp ⟨fault, he⟩) h
    | ok bytes => exact ⟨bytes, rfl, decode?_encode he⟩
  · rw [normal]
    exact Option.map_eq_none_iff

namespace Small

/-- A name with a character of no width and one beyond the first plane. -/
def attributes : ObjectAttributes := { name := some "\x00😀", descriptor := [7] }

/-- A request whose name takes three units. -/
def named : CreateRequest := { low := -1, high := 2, attributes := some attributes }

/-- A request whose attributes say nothing. -/
def nameless : CreateRequest := { attributes := some { name := some "" } }

end Small

/-- The name is read back; and empty attributes are attributes. -/
theorem sent_unless_exceeding_small :
    (∃ bytes, Small.named.encode = .ok bytes ∧ decode? bytes = some Small.named) ∧
    ∃ bytes, Small.nameless.encode = .ok bytes ∧ decode? bytes = some { attributes := some {} } := by
  have hunits : Small.attributes.nameUnits = [0, 0xD83D, 0xDE00] := rfl
  have named : ¬ Small.named.Exceeding := by
    rintro ⟨a, ⟨⟩, h⟩
    rw [hunits] at h
    exact absurd h (by decide)
  have hempty : ObjectAttributes.nameUnits { name := some "" } = [] := rfl
  have nameless : ¬ Small.nameless.Exceeding := by
    rintro ⟨a, ⟨⟩, h⟩
    rw [hempty] at h
    exact absurd h (by decide)
  have hnamed : Small.named.normal = Small.named := rfl
  have hnameless : Small.nameless.normal = { attributes := some {} } := rfl
  exact ⟨hnamed ▸ (sent_unless_exceeding Small.named).2.2.1 named,
    hnameless ▸ (sent_unless_exceeding Small.nameless).2.2.1 nameless⟩

end CreateRequest

end SharedSync
