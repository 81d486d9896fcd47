import SourceBaseline.CommandLine.Arguments
import SourceBaseline.Engine
import SourceBaseline.Report

/-!
# The command line

A command stands for an operation of the engine, and its result is printed. The exit code is 0 if
there is nothing to report, 1 if something changed, and 2 for breaking changes and errors.
-/

set_option autoImplicit false

namespace SourceBaseline

/-- What a command prints and the code that it exits with. -/
structure Printout where
  code : Nat
  stdout : String
  stderr : String
  deriving DecidableEq, Inhabited

namespace Printout

def ofLines (code : Nat) (lines : List String) : Printout := ⟨code, textOfLines lines, ""⟩

def ofJson (code : Nat) (json : Json) : Printout := ofLines code [json.pretty]

def fileChangeLabel : FileChangeKind → String
  | .added => "ADDED   "
  | .deleted => "DELETED "
  | .modified => "MODIFIED"

/-- File changes, one a line, with their number at the end. -/
def fileChanges (changes : List FileChange) (json : Bool) : Printout :=
  let code := if changes = [] then 0 else 1
  if json then ofJson code (.array (changes.map FileChange.toJson))
  else if changes = [] then ofLines code ["No changes"]
  else
    ofLines code
      (changes.map (fun change => fileChangeLabel change.kind ++ " " ++ change.file) ++
        ["", toString changes.length ++ " changed"])

def severityLabel : Severity → String
  | .breaking => "BREAKING"
  | .nonBreaking => "        "

/-- A symbol change, with both signatures below it if they differ. -/
def semanticChangeLines (change : SemanticChange) : List String :=
  let place := match change.line with
    | none => change.file
    | some line => change.file ++ ":" ++ toString line.toNat
  let heading := severityLabel change.severity ++ " " ++ change.kind.label ++ " " ++ change.name ++
    " (" ++ place ++ ")"
  match change.oldSignature, change.newSignature with
  | some old, some new =>
      if old ≠ new then [heading, "           - " ++ old, "           + " ++ new] else [heading]
  | _, _ => [heading]

def breakingCount (changes : List SemanticChange) : Nat :=
  (changes.filter (·.severity = .breaking)).length

def semanticChanges (changes : List SemanticChange) (json : Bool) : Printout :=
  let breaking := breakingCount changes
  let code := if breaking ≠ 0 then 2 else if changes = [] then 0 else 1
  if json then ofJson code (.array (changes.map SemanticChange.toJson))
  else if changes = [] then ofLines code ["No symbol changes"]
  else
    ofLines code
      (changes.flatMap semanticChangeLines ++
        ["", toString changes.length ++ " changes, " ++ toString breaking ++ " breaking"])

def summary (verb : String) (written : BaselineSummary) : Printout :=
  ofLines 0
    ((verb ++ " baselines: " ++ toString written.files ++ " files, " ++
        toString written.symbols ++ " symbols") ::
      written.skipped.map fun (file, reason) =>
        "SKIPPED  " ++ file ++ " (" ++ reason.description ++ ")")

def symbolLine (symbol : Symbol) : String :=
  symbol.file ++ ":" ++ toString symbol.line.toNat ++ " " ++ symbol.kind.label ++ " " ++
    (symbol.enclosing.map (· ++ ".")).getD "" ++ symbol.name

def symbols (extraction : Extraction) (json : Bool) : Printout :=
  if json then ofJson 0 (Symbol.mapToJson extraction.symbols)
  else ofLines 0 (extraction.symbols.values.flatten.map symbolLine)

/-- An error as a report on standard error. -/
def failure (error : Error) : Printout := ⟨2, "", terminalReport error⟩

def usage : Printout :=
  ⟨2, "", textOfLines
    ["Usage: driftline [--root ROOT] [-q] COMMAND", "",
      "  diff [--json] [--since REVISION]",
      "  init [--reset]",
      "  status",
      "  symbols [--json]",
      "  update"]⟩

end Printout

namespace Command

def execute (command : Command) (engine : Engine) : Action Printout :=
  match command with
  | diff json none => (Printout.semanticChanges · json) <$> Action.read engine.semanticDiff
  | diff json (some revision) =>
      (Printout.fileChanges · json) <$> Action.read (engine.changesSince revision)
  | init reset => Printout.summary "Initialized" <$> engine.create reset
  | status => (Printout.fileChanges · false) <$> Action.read engine.check
  | symbols json => (Printout.symbols · json) <$> Action.read engine.extractSymbols
  | update => Printout.summary "Updated" <$> engine.update

def run (command : Command) (grammar : Grammar) (root : Path) : StateM Host Printout := do
  let attempt : Action Printout := do
    let engine ← Action.read fun host => Engine.open? grammar host.disk root
    command.execute engine
  match ← attempt.run with
  | .ok printout => pure printout
  | .error error => pure (.failure error)

end Command

/-- Carry out what some arguments ask for, in the directory at the top where they name no root. -/
def runArguments (arguments : List String) (grammar : Grammar) : StateM Host Printout :=
  match Invocation.parse? arguments with
  | some invocation => invocation.command.run grammar (invocation.root.getD ⟨"."⟩)
  | none => pure Printout.usage

end SourceBaseline
