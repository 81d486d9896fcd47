import SourceBaseline.Boundary
import SourceBaseline.Lock
import SourceBaseline.Toml.Parser
import SourceBaseline.Visibility

/-!
# Settings

The settings of a project stand in a TOML file in its root. Whatever is not set has a default, but
a file that is there must be sound: an unknown key or a value of the wrong type is an error.
-/

set_option autoImplicit false

namespace SourceBaseline

def settingsFile : String := ".driftline.toml"

def defaultStateDirectory : String := ".driftline"

/-- The settings of a project. Durations are in milliseconds. -/
structure Settings where
  exclude : List String
  lockTimeout : Nat
  maxFiles : Nat
  linkBudget : Nat
  stateDirectory : Path
  timeout : Nat
  visibility : SortedMap String Convention
  deriving DecidableEq

namespace Settings

def standard : Settings where
  exclude := []
  lockTimeout := defaultLockTimeout
  maxFiles := 10000
  linkBudget := defaultLinkBudget
  stateDirectory := ⟨defaultStateDirectory⟩
  timeout := 60000
  visibility := .empty

instance : Inhabited Settings := ⟨standard⟩

def text? : Toml → Option String
  | .string text => some text
  | _ => none

def count? : Toml → Option Nat
  | .integer (.ofNat value) => some value
  | _ => none

/-- A value as a number of seconds, in milliseconds. -/
def seconds? (value : Toml) : Option Nat :=
  (count? value).map (1000 * ·)

def texts? : Toml → Option (List String)
  | .array items => items.mapM text?
  | _ => none

/-- Whether a value is an array or table without anything in it. -/
def isVacant : Toml → Bool
  | .array items => items.isEmpty
  | .table _ entries => entries.isEmpty
  | _ => false

/-- A value as a convention: its name, or a table with a single entry of that name and nothing in
it. -/
def convention? : Toml → Option Convention
  | .string text => Convention.ofText? text
  | .table _ [(name, value)] => if isVacant value then Convention.ofText? name else none
  | _ => none

def conventions? : Toml → Option (SortedMap String Convention)
  | .table _ entries =>
      let found := entries.mapM fun entry => (convention? entry.2).map fun found => (entry.1, found)
      found.map .ofList
  | _ => none

def assign? (settings : Settings) (entry : String × Toml) : Option Settings :=
  let (key, value) := entry
  match key with
  | "exclude" => (texts? value).map fun exclude => { settings with exclude }
  | "lock_timeout_secs" => (seconds? value).map fun lockTimeout => { settings with lockTimeout }
  | "max_files" => (count? value).map fun maxFiles => { settings with maxFiles }
  | "max_symlink_depth" => (count? value).map fun linkBudget => { settings with linkBudget }
  | "state_dir" => (text? value).map fun text => { settings with stateDirectory := ⟨text⟩ }
  | "timeout_secs" => (seconds? value).map fun timeout => { settings with timeout }
  | "visibility" => (conventions? value).map fun visibility => { settings with visibility }
  | _ => none

def parse (text : String) : Outcome Settings :=
  match (Toml.parse? text).bind fun entries => entries.foldlM assign? standard with
  | some settings => .ok settings
  | none => .error (.invalidSettings "the text does not describe settings")

def load (disk : Disk) (root : Path) : Outcome Settings := do
  let boundary ← Boundary.open? disk root defaultLinkBudget
  let place ← boundary.validate disk ⟨settingsFile⟩
  match disk.readText (Location.route place) with
  | .ok text => parse text
  | .error .notFound => pure standard
  | .error fault => .error (.disk fault)

def visibilityPolicy (settings : Settings) : VisibilityPolicy :=
  .withOverrides settings.visibility

end Settings

end SourceBaseline
