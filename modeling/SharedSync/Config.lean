import SharedSync.System
import SharedSync.Text

/-!
# Configuration — the switch, the backing file, and the decision

Three environment variables: a switch, and the two directories that fix the backing file.  The
file's name is made from the inode of the configuration directory, so all who share that
directory agree on the file without exchanging its name.

The switch is on if, behind leading blanks and one optional sign, its leading decimal digits make
a number other than zero; a value that is not UTF-8 is off.  An empty directory counts as absent.

Whether the fast path is on is decided once in a process (`Gate`): it was requested, and the
kernel can wait on several words at once.
-/

namespace SharedSync

/-- What the environment says. -/
structure Config where
  enabled : Bool
  configDir : Path
  shmDir : Path

namespace Config

/-- The variable of the switch. -/
def enableVariable : String := "FSYNC"

/-- The variable of the directory that all who take part share. -/
def configDirVariable : String := "FSYNC_CONFIG_DIR"

/-- The variable of the directory in which the backing file is. -/
def shmDirVariable : String := "FSYNC_SHM_DIR"

/-- Where backing files are unless the variable says otherwise. -/
def defaultShmDir : String := "/dev/shm"

/-- How names of backing files start. -/
def backingPrefix : String := "fsync"

/-- The configuration of an empty environment. -/
def standard : Config where
  enabled := false
  configDir := Path.ofString "."
  shmDir := Path.ofString defaultShmDir

/-- The text without one leading sign. -/
def dropSign : List Char → List Char
  | '+' :: rest => rest
  | '-' :: rest => rest
  | text => text

/-- The switch is on.  A number is zero just if all its digits are, however many there are. -/
def isOn (value : Bytes) : Bool :=
  match Utf8.decode? value with
  | none => false
  | some text =>
      ((dropSign (text.toList.dropWhile Text.isBlank)).takeWhile Char.isDigit).any (· ≠ '0')

/-- The directory a variable names, or the default. -/
def directory (value : Option Bytes) (default : Path) : Path :=
  match value with
  | none => default
  | some bytes => if bytes.isEmpty then default else ⟨bytes⟩

/-- The configuration of an environment, in which any variable may be absent. -/
def ofEnvironment (lookup : String → Option Bytes) : Config where
  enabled := (lookup enableVariable).any isOn
  configDir := directory (lookup configDirVariable) standard.configDir
  shmDir := directory (lookup shmDirVariable) standard.shmDir

/-- Equal up to the spelling of the paths. -/
def same (c d : Config) : Bool :=
  c.enabled == d.enabled && c.configDir.same d.configDir && c.shmDir.same d.shmDir

/-- The name of the backing file of a configuration directory. -/
def backingName (system : System) (configDir : Path) : Except SystemError String :=
  (system.inode configDir).map fun inode => backingPrefix ++ "-" ++ Text.hex inode

/-- Where the backing file is. -/
def backingPath (c : Config) (system : System) : Except SystemError Path :=
  (backingName system c.configDir).map c.shmDir.join

/-- The configuration as diagnostics show it. -/
def describe (c : Config) : String :=
  "FsyncConfig \x7b enabled: " ++ toString c.enabled ++ ", config_dir: " ++ c.configDir.quoted ++
    ", shm_dir: " ++ c.shmDir.quoted ++ " \x7d"

end Config

/-- What was requested, and what the kernel said to it. -/
structure GateDecision where
  requested : Bool
  /-- What the kernel answered, if it was asked. -/
  supported : Option Bool
deriving DecidableEq, Repr

namespace GateDecision

/-- The fast path is on. -/
def enabled (d : GateDecision) : Bool := d.requested && d.supported == some true

/-- The decision in one word, as messages name it. -/
def status (d : GateDecision) : String :=
  if !d.requested then "disabled:not-requested"
  else if d.enabled then "enabled"
  else "disabled:futex-wait-multiple-unavailable"

/-- The kernel's answer, with the absent one spelled out. -/
def supportText (d : GateDecision) : String :=
  match d.supported with
  | none => "None"
  | some answer => "Some(" ++ toString answer ++ ")"

/-- The decision as diagnostics show it. -/
def describe (d : GateDecision) : String :=
  "GateDecision \x7b requested: " ++ toString d.requested ++ ", futex_supported: " ++
    d.supportText ++ " \x7d"

end GateDecision

end SharedSync
