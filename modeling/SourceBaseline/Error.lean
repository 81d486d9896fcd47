import SourceBaseline.Fault

/-!
# Errors

An error is the cause for which an operation was given up. Paths in it are relative to the project
or redacted. `Error.message` words it on one line.
-/

set_option autoImplicit false

namespace SourceBaseline

/-- Why an operation was given up. Durations are in milliseconds. -/
inductive Error where
  | baselineExists (file : String)
  | baselineNotFound (file : String)
  | outsideRoot (path : String)
  | locked (file : String) (waited : Nat)
  | fileTooLarge (file : String) (limit size : Nat)
  | disk (fault : Fault)
  | unparsed (file reason : String)
  | tooManyLinks (limit : Nat) (path : String)
  | tooManyEntries (guidance : String) (limit : Nat) (resource : String)
  | invalidRevision (revision : String)
  | malformedDocument (file reason : String)
  | timedOut (deadline : Nat) (guidance operation : String)
  | invalidSettings (reason : String)
  | git (reason : String)
  deriving DecidableEq, Inhabited

namespace Error

def seconds (milliseconds : Nat) : String :=
  toString (milliseconds / 1000) ++ "s"

def message : Error → String
  | .baselineExists file => "baseline already exists: " ++ file ++ " (pass reset to overwrite)"
  | .baselineNotFound file => "baseline not found: " ++ file
  | .outsideRoot path => "path escapes project root: " ++ path
  | .locked file waited =>
      "could not lock " ++ file ++ " within " ++ seconds waited ++
        " (held by another driftline process?)"
  | .fileTooLarge file limit size =>
      "file too large (" ++ toString size ++ " bytes, max " ++ toString limit ++ "): " ++ file
  | .disk fault => "io: " ++ fault.message
  | .unparsed file reason => "parse failed: " ++ file ++ ": " ++ reason
  | .tooManyLinks limit path =>
      "symlink chain deeper than " ++ toString limit ++ " links: " ++ path
  | .tooManyEntries guidance limit resource =>
      resource ++ " limit of " ++ toString limit ++ " exceeded. " ++ guidance
  | .invalidRevision revision => "invalid revision: `" ++ revision ++ "`"
  | .malformedDocument file reason => "serialization: " ++ file ++ ": " ++ reason
  | .timedOut deadline guidance operation =>
      operation ++ " exceeded its " ++ seconds deadline ++ " deadline. " ++ guidance
  | .invalidSettings reason => "toml deserialize: " ++ reason
  | .git reason => "vcs: " ++ reason

/-- Whether the error only rules out one entry of many. -/
def isSkippable : Error → Bool
  | .outsideRoot _ => true
  | .tooManyLinks _ _ => true
  | _ => false

end Error

abbrev Outcome (α : Type) := Except Error α

def Outcome.ofDisk {α : Type} : Except Fault α → Outcome α
  | .ok value => .ok value
  | .error fault => .error (.disk fault)

theorem Outcome.ofDisk_eq_ok_iff {α : Type} {result : Except Fault α} {value : α} :
    ofDisk result = .ok value ↔ result = .ok value := by
  cases result <;> simp [ofDisk]

end SourceBaseline
