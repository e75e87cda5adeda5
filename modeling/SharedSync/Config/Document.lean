import SharedSync.Config
import SharedSync.Object.Handle
import SharedSync.Object.Status

/-!
# Configuration — values as documents

Handles, slots, kinds, statuses and configurations can be written into a document of nulls,
truth values, numbers, texts, lists and records, and read from one.  Numbers must be whole and
written as such.  A case without content is a text, or a record of that one name with null.

* Reading a record of a configuration ignores names that it does not know.
-/

namespace SharedSync

/-- A value as it is written down, whatever the notation. -/
inductive Document where
  | null
  | truth (value : Bool)
  | whole (value : Int)
  /-- A number written with a fraction: `mantissa / 10 ^ places`. -/
  | fraction (mantissa : Int) (places : Nat)
  | text (value : String)
  | list (items : List Document)
  | record (entries : List (String × Document))

namespace Document

/-- A whole number that fits 32 bits. -/
def word? : Document → Option UInt32
  | whole value => if 0 ≤ value && value < 0x100000000 then some (UInt32.ofNat value.toNat) else none
  | _ => none

/-- A 32-bit number, which is always whole. -/
def ofWord (value : UInt32) : Document := whole (Int.ofNat value.toNat)

/-- The truth value that a document is. -/
def truth? : Document → Option Bool
  | truth value => some value
  | _ => none

/-- The text that a document is. -/
def text? : Document → Option String
  | text value => some value
  | _ => none

/-- The name of a case without content. -/
def caseName? : Document → Option String
  | text name => some name
  | record [(name, null)] => some name
  | _ => none

end Document

namespace Handle

/-- A handle is written as its raw value. -/
def toDocument (h : Handle) : Document := .ofWord h.raw

/-- A handle is read from any number but zero. -/
def ofDocument? (d : Document) : Option Handle := d.word?.bind ofRaw?

end Handle

namespace Slot

/-- A slot is written as its number. -/
def toDocument (s : Slot) : Document := .ofWord s.number

/-- A slot is read from any 32-bit number. -/
def ofDocument? (d : Document) : Option Slot := d.word?.map Slot.mk

end Slot

namespace ObjectKind

/-- A kind is written by its name. -/
def toDocument : ObjectKind → Document
  | semaphore => .text "Semaphore"

/-- A kind is read by its name. -/
def ofDocument? (d : Document) : Option ObjectKind :=
  if d.caseName? = some "Semaphore" then some semaphore else none

end ObjectKind

namespace Status

/-- A named status is written by its name, any other by its code. -/
def toDocument : Status → Document
  | other code => .record [("Other", .ofWord code)]
  | status => .text (status.name?.getD "")

/-- A code under the name of the unnamed case stays there, also if the code has a name. -/
def ofDocument? : Document → Option Status
  | .record [("Other", d)] => d.word?.map other
  | d => d.caseName?.bind fun name => named.find? fun status => status.name? = some name

end Status

namespace Config

/-- A configuration from its three values. -/
def ofParts? (enabled configDir shmDir : Document) : Option Config := do
  let enabled ← enabled.truth?
  let configDir ← configDir.text?
  let shmDir ← shmDir.text?
  some { enabled, configDir := Path.ofString configDir, shmDir := Path.ofString shmDir }

/-- A configuration is read from a list in order, or from a record in any order. -/
def ofDocument? : Document → Option Config
  | .list [enabled, configDir, shmDir] => ofParts? enabled configDir shmDir
  | .record entries => do
      let enabled ← entries.lookup "enabled"
      let configDir ← entries.lookup "config_dir"
      let shmDir ← entries.lookup "shm_dir"
      ofParts? enabled configDir shmDir
  | _ => none

/-- Both directories must be UTF-8. -/
def toDocument? (c : Config) : Option Document := do
  let configDir ← c.configDir.text?
  let shmDir ← c.shmDir.text?
  some (.record [("enabled", .truth c.enabled), ("config_dir", .text configDir),
    ("shm_dir", .text shmDir)])

end Config

namespace GateDecision

/-- A decision is written with what the kernel said, or null if it was not asked. -/
def toDocument (d : GateDecision) : Document :=
  .record [("requested", .truth d.requested),
    ("futex_supported", (d.supported.map Document.truth).getD .null)]

end GateDecision

end SharedSync
