import SourceBaseline.Path

/-!
# Arguments

The arguments name a command and give options before and after its name. `--root` and the options
for logging may stand on either side, and the root after the name is the one that counts. No option
stands twice on one side, and `--` at the end closes the options. What is logged is not part of
what a command prints, so the options for logging are read and forgotten.
-/

set_option autoImplicit false

namespace SourceBaseline

inductive Command where
  | diff (json : Bool) (since : Option String)
  | init (reset : Bool)
  | status
  | symbols (json : Bool)
  | update
  deriving DecidableEq, Inhabited

/-- The options without a value. -/
inductive Switch where
  | json
  | quiet
  | reset
  | verbose
  deriving DecidableEq, Inhabited

/-- The options with a value. -/
inductive Setting where
  | root
  | since
  deriving DecidableEq, Inhabited

/-- The options on one side of the name of a command. -/
structure Options where
  switches : List Switch
  settings : List (Setting × String)
  deriving DecidableEq, Inhabited

namespace Switch

def ofName? : String → Option Switch
  | "--json" => some .json
  | "--quiet" => some .quiet
  | "--reset" => some .reset
  | "--verbose" => some .verbose
  | _ => none

def ofLetter? : Char → Option Switch
  | 'q' => some .quiet
  | 'v' => some .verbose
  | _ => none

/-- The switches that one argument stands for: a long name, or letters after a dash. -/
def read? (argument : String) : Option (List Switch) :=
  match ofName? argument, argument.toList with
  | some switch, _ => some [switch]
  | none, '-' :: letter :: letters => (letter :: letters).mapM ofLetter?
  | none, _ => none

/-- Whether the switch may stand on either side of the name of a command. -/
def isGlobal (switch : Switch) : Bool :=
  switch = .quiet || switch = .verbose

end Switch

namespace Setting

def ofName? : String → Option Setting
  | "--root" => some .root
  | "--since" => some .since
  | _ => none

/-- The setting and its value, where both stand in one argument. -/
def readJoined? (argument : String) : Option (Setting × String) := do
  let (name, value) ← Text.splitOnce? '=' argument.toList
  pure (← ofName? (.ofList name), .ofList value)

/-- Whether an argument of its own can be a value: it is no option, though it may be a dash. -/
def isSeparateValue (argument : String) : Bool :=
  argument = "-" || argument.toList.head? ≠ some '-'

/-- Whether a setting takes a value: a root must not be empty. -/
def accepts (setting : Setting) (value : String) : Bool :=
  setting ≠ .root || value ≠ ""

end Setting

namespace Options

def none : Options := ⟨[], []⟩

def addSwitches? (options : Options) (switches : List Switch) : Option Options :=
  let all := switches ++ options.switches
  if all.Nodup then some { options with switches := all } else Option.none

def addSetting? (options : Options) (setting : Setting) (value : String) : Option Options :=
  if setting ∈ options.settings.map Prod.fst ∨ !setting.accepts value then Option.none
  else some { options with settings := (setting, value) :: options.settings }

/-- Whether all options are allowed: the global ones always are. -/
def allowed (options : Options) (switches : List Switch) (settings : List Setting) : Bool :=
  options.switches.all (fun switch => switch.isGlobal || switches.contains switch) &&
    options.settings.all fun (setting, _) => setting = .root || settings.contains setting

def has (options : Options) (switch : Switch) : Bool :=
  options.switches.contains switch

def value? (options : Options) (setting : Setting) : Option String :=
  options.settings.lookup setting

/-- Read the options in front, and what follows them. -/
def read? (options : Options) : List String → Option (Options × List String)
  | [] => some (options, [])
  | argument :: rest =>
      match Setting.ofName? argument, rest with
      | some setting, value :: rest =>
          if Setting.isSeparateValue value then
            (options.addSetting? setting value).bind fun longer => read? longer rest
          else Option.none
      | some _, [] => Option.none
      | Option.none, rest =>
          match Setting.readJoined? argument, Switch.read? argument with
          | some (setting, value), _ =>
              (options.addSetting? setting value).bind fun longer => read? longer rest
          | Option.none, some switches =>
              (options.addSwitches? switches).bind fun longer => read? longer rest
          | Option.none, Option.none =>
              if argument = "--" ∧ rest = [] then some (options, [])
              else if argument.toList.head? = some '-' then Option.none
              else some (options, argument :: rest)

end Options

/-- The options that a command takes, and the command that they make. -/
structure CommandForm where
  switches : List Switch
  settings : List Setting
  command : Options → Command

namespace CommandForm

def ofName? : String → Option CommandForm
  | "diff" =>
      some ⟨[.json], [.since], fun options => .diff (options.has .json) (options.value? .since)⟩
  | "init" => some ⟨[.reset], [], fun options => .init (options.has .reset)⟩
  | "status" => some ⟨[], [], fun _ => .status⟩
  | "symbols" => some ⟨[.json], [], fun options => .symbols (options.has .json)⟩
  | "update" => some ⟨[], [], fun _ => .update⟩
  | _ => none

end CommandForm

/-- A command and the root of the project for it, where one is named. -/
structure Invocation where
  root : Option Path
  command : Command
  deriving DecidableEq, Inhabited

namespace Invocation

def parse? (arguments : List String) : Option Invocation := do
  let (before, rest) ← Options.none.read? arguments
  match rest with
  | [] => none
  | name :: rest =>
      let form ← CommandForm.ofName? name
      let (after, others) ← Options.none.read? rest
      if before.allowed [] [] ∧ after.allowed form.switches form.settings ∧ others = [] then
        let root := (after.value? .root).orElse fun _ => before.value? .root
        some ⟨root.map Path.mk, form.command after⟩
      else none

end Invocation

end SourceBaseline
