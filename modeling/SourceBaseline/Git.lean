import SourceBaseline.Baseline.Checksum
import SourceBaseline.Boundary
import SourceBaseline.Change
import SourceBaseline.Deadline
import SourceBaseline.Text.Lines
import SourceBaseline.Text.Quoted
import SourceBaseline.Text.Redaction

/-!
# Git

Git is asked for the branch and commit of a project and for the files changed since a revision.
What it would answer is part of the world, so that questions are functions of it.
-/

set_option autoImplicit false

namespace SourceBaseline

/-- What a run of git prints, how it ends, and how long it takes in seconds. -/
structure GitAnswer where
  stdout : String
  stderr : String
  code : Nat
  seconds : Nat
  deriving DecidableEq, Inhabited

inductive GitQuestion where
  | commit
  | branch
  | changesSince (revision : String)
  deriving DecidableEq, Inhabited

structure Git where
  installed : Bool
  answer : GitQuestion → GitAnswer

namespace Git

def noRepository : GitAnswer where
  stdout := ""
  stderr := "fatal: not a git repository (or any of the parent directories): .git\n"
  code := 128
  seconds := 0

def outsideRepository : Git := ⟨true, fun _ => noRepository⟩

def commandName : GitQuestion → String
  | .commit => "rev-parse"
  | .branch => "rev-parse"
  | .changesSince _ => "diff"

def trimmed (text : String) : String :=
  .ofList (Text.trim text.toList)

/-- Ask git, and add the time that it takes to what the operation has spent. A run that outlasts the
deadline is given up. -/
def ask (git : Git) (question : GitQuestion) (deadline : Deadline) : Outcome String × Deadline :=
  if !git.installed then
    (.error (.git ("could not run git: " ++ Fault.notFound.message)), deadline)
  else
    let answer := git.answer question
    let later := { deadline with spent := deadline.spent + 1000 * answer.seconds }
    if later.isExpired then (.error later.error, later)
    else if answer.code = 0 then (.ok answer.stdout, later)
    else
      (.error (.git ("git " ++ commandName question ++ " failed: " ++
        Text.sanitize (trimmed answer.stderr))), later)

/-- The branch and commit of the project, if git knows a commit. -/
def metadata? (git : Git) (deadline : Deadline) : Option GitMetadata × Deadline :=
  match git.ask .commit deadline with
  | (.error _, deadline) => (none, deadline)
  | (.ok commit, deadline) =>
      let (branch, deadline) := git.ask .branch deadline
      let branch := branch.toOption.map trimmed
      (some {
        branch := branch.filter fun name => name ≠ "" ∧ name ≠ "HEAD"
        commit := (some (trimmed commit)).filter (· ≠ "") }, deadline)

def forwardSlashes (name : List Char) : String :=
  .ofList (name.map fun char => if char = '\\' then '/' else char)

/-- The changes that one line of a listing of names and states stands for. A copy adds its last
name, and a rename adds the new name and deletes the old one. -/
def lineChanges (line : List Char) : List FileChange :=
  match Text.pieces '\t' line with
  | status :: first :: others =>
      match status.head? with
      | some 'A' | some 'C' =>
          [⟨.added, forwardSlashes (others.getLast?.getD first)⟩]
      | some 'D' => [⟨.deleted, forwardSlashes first⟩]
      | some 'M' | some 'T' => [⟨.modified, forwardSlashes first⟩]
      | some 'R' =>
          (others.head?.toList.map fun renamed => ⟨.added, forwardSlashes renamed⟩) ++
            [⟨.deleted, forwardSlashes first⟩]
      | _ => []
  | _ => []

def parseNameStatus (output : String) : List FileChange :=
  (Text.lines output.toList).flatMap lineChanges

def isControl (char : Char) : Bool :=
  char.toNat < 32 || (127 ≤ char.toNat && char.toNat < 160)

/-- Refuse a revision that git could read as an option or that holds blanks or controls. -/
def checkRevision (revision : String) : Outcome Unit :=
  let chars := revision.toList
  if chars = [] ∨ chars.head? = some '-' ∨
      chars.any (fun char => Text.isBlank char || isControl char) then
    .error (.invalidRevision (Text.escaped revision))
  else .ok ()

/-- Keep one of neighbours that are equal. -/
def dropRepeats : List FileChange → List FileChange
  | [] => []
  | [change] => [change]
  | first :: second :: rest =>
      if first = second then dropRepeats (second :: rest)
      else first :: dropRepeats (second :: rest)

/-- The files that changed since a revision, inside the root and not excluded. -/
def changedFilesSince (git : Git) (disk : Disk) (boundary : Boundary) (exclude : Exclude)
    (revision : String) (deadline : Deadline) : Outcome (List FileChange × Deadline) := do
  checkRevision revision
  let (output, deadline) := git.ask (.changesSince revision) deadline
  let kept := (parseNameStatus (← output)).filter fun change =>
    !exclude.isExcluded change.file && (boundary.validate disk ⟨change.file⟩).toOption.isSome
  pure (dropRepeats (FileChange.sort kept), deadline)

end Git

end SourceBaseline
