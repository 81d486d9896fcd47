import SourceBaseline.Host
import SourceBaseline.Target

/-!
# Staged writes

A document is written to a temporary file beside its target and takes the place of the target in
one step. Until then, and if it is discarded, the target stays as it is.
-/

set_option autoImplicit false

namespace SourceBaseline

/-- A temporary file that waits to take the place of its target. -/
structure StagedWrite where
  target : Target
  temporary : Target
  deriving DecidableEq, Inhabited

namespace StagedWrite

/-- The name of a temporary file with at least six digits. -/
def temporaryName (number : Nat) : String :=
  let digits := Nat.toDigits 10 number
  ".tmp" ++ .ofList (List.replicate (6 - digits.length) '0' ++ digits)

def isFree (disk : Disk) (target : Target) : Bool :=
  match disk.inspectLink target.route with
  | .ok _ => false
  | .error _ => true

/-- The first temporary name that is free beside a target. -/
def freeName? (disk : Disk) (target : Target) : Option Target :=
  ((List.range (disk.size + 1)).find? fun number =>
    isFree disk (target.beside (temporaryName number))).map fun number =>
      target.beside (temporaryName number)

def writeTemporary (disk : Disk) (target : Target) (content : ByteArray) :
    Except Fault (StagedWrite × Disk) :=
  match freeName? disk target with
  | none => .error .exists
  | some temporary => do
      pure (⟨target, temporary⟩, ← disk.createFile temporary.route content)

def stage (target : Target) (content : ByteArray) : Action StagedWrite := do
  Action.ensureDirectory target.directories
  fun host =>
    match writeTemporary host.disk target content with
    | .ok (staged, disk) => (.ok staged, { host with disk })
    | .error fault => (.error (.disk fault), host)

def discard (staged : StagedWrite) : Action Unit :=
  Action.change fun disk => disk.removeFile staged.temporary.route

/-- Let the temporary file take the place of the target. If that fails, it is removed. -/
def commit (staged : StagedWrite) : Action Unit :=
  Action.onError
    (Action.change fun disk => disk.rename staged.temporary.route staged.target.route)
    staged.discard

end StagedWrite

end SourceBaseline
