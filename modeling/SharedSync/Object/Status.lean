import SharedSync.Text

/-!
# Objects — the authority's verdicts

A status is a 32-bit code.  Nine codes have names; every other code is kept as it is in `other`,
so it can be handed back unchanged.

* `code_ofCode`: reading a code and writing it back gives the code.
* `ofCode_code_iff`: a status reads back as itself exactly when it is not `other` with the code
  of a named status.
-/

namespace SharedSync

/-- The authority's verdict on a request. -/
inductive Status where
  | success
  | objectNameExists
  | notImplemented
  | invalidParameter
  | accessDenied
  | noMemory
  | objectNameInvalid
  | objectTypeMismatch
  | invalidHandle
  | other (code : UInt32)
deriving DecidableEq, Repr

namespace Status

/-- The named statuses. -/
def named : List Status :=
  [success, objectNameExists, notImplemented, invalidParameter, accessDenied, noMemory,
   objectNameInvalid, objectTypeMismatch, invalidHandle]

/-- The code on the wire. -/
def code : Status → UInt32
  | success => 0x00000000
  | objectNameExists => 0x40000000
  | notImplemented => 0xC0000002
  | invalidHandle => 0xC0000008
  | invalidParameter => 0xC000000D
  | noMemory => 0xC0000017
  | accessDenied => 0xC0000022
  | objectTypeMismatch => 0xC0000024
  | objectNameInvalid => 0xC0000033
  | other code => code

/-- The named status of a code, or the code itself. -/
def ofCode (code : UInt32) : Status :=
  (named.find? fun s => s.code = code).getD (other code)

/-- The code has a name. -/
def isNamed : Status → Bool
  | other _ => false
  | _ => true

/-- The reply carries a usable handle and slot: the object is new, or exists under that name. -/
def yieldsObject : Status → Bool
  | success | objectNameExists => true
  | _ => false

/-- The two statuses with an object. -/
theorem yieldsObject_iff {status : Status} :
    status.yieldsObject = true ↔ status = success ∨ status = objectNameExists := by
  cases status <;> simp [yieldsObject]

/-- The name of a named status, as configuration documents write it. -/
def name? : Status → Option String
  | success => some "Success"
  | objectNameExists => some "ObjectNameExists"
  | notImplemented => some "NotImplemented"
  | invalidParameter => some "InvalidParameter"
  | accessDenied => some "AccessDenied"
  | noMemory => some "NoMemory"
  | objectNameInvalid => some "ObjectNameInvalid"
  | objectTypeMismatch => some "ObjectTypeMismatch"
  | invalidHandle => some "InvalidHandle"
  | other _ => none

instance : ToString Status where
  toString
    | success => "STATUS_SUCCESS"
    | objectNameExists => "STATUS_OBJECT_NAME_EXISTS"
    | notImplemented => "STATUS_NOT_IMPLEMENTED"
    | invalidParameter => "STATUS_INVALID_PARAMETER"
    | accessDenied => "STATUS_ACCESS_DENIED"
    | noMemory => "STATUS_NO_MEMORY"
    | objectNameInvalid => "STATUS_OBJECT_NAME_INVALID"
    | objectTypeMismatch => "STATUS_OBJECT_TYPE_MISMATCH"
    | invalidHandle => "STATUS_INVALID_HANDLE"
    | other code => "status " ++ Text.marked 8 code.toNat

/-- Reading a code and writing it back gives the code. -/
theorem code_ofCode (c : UInt32) : (ofCode c).code = c := by
  unfold ofCode
  cases h : named.find? fun s => decide (s.code = c) with
  | none => rfl
  | some s => simpa using List.find?_some h

/-- A named status reads back as itself. -/
theorem ofCode_code_of_isNamed {s : Status} (h : s.isNamed) : ofCode s.code = s := by
  cases s with
  | other => cases h
  | _ => rfl

theorem isNamed_of_mem_named {s : Status} (h : s ∈ named) : s.isNamed := by
  revert s
  decide

/-- A status reads back as itself unless it is a named code kept as unnamed. -/
theorem ofCode_code_iff (s : Status) :
    ofCode s.code = s ↔ s.isNamed ∨ ∀ t ∈ named, t.code ≠ s.code := by
  constructor
  · intro h
    refine Classical.or_iff_not_imp_right.mpr fun hn => ?_
    simp only [ne_eq, Classical.not_forall, Classical.not_not] at hn
    obtain ⟨t, ht, hc⟩ := hn
    have := ofCode_code_of_isNamed (isNamed_of_mem_named ht)
    rw [hc, h] at this
    rw [this]
    exact isNamed_of_mem_named ht
  · rintro (h | h)
    · exact ofCode_code_of_isNamed h
    · have hf : named.find? (fun t => decide (t.code = s.code)) = none := by
        rw [List.find?_eq_none]
        simpa using h
      rw [ofCode, hf]
      cases s with
      | other => rfl
      | _ => exact absurd rfl (h _ (by decide))

end Status

end SharedSync
