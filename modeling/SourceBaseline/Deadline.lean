import SourceBaseline.Error

/-!
# Deadlines

An operation may run for a limited time. The time it spends in programs that it waits for counts
against the limit, and a limit of nothing has run out at the first check.
-/

set_option autoImplicit false

namespace SourceBaseline

/-- The time that an operation may take and what it has spent, in milliseconds. -/
structure Deadline where
  operation : String
  limit : Option Nat
  spent : Nat
  deriving DecidableEq, Inhabited

def timeoutGuidance : String :=
  "Exclude large generated or vendored directories, or raise `timeout_secs` in .driftline.toml."

def fileLimitError (limit : Nat) : Error :=
  .tooManyEntries
    ("Narrow the tree with `exclude` rules in .driftline.toml, or raise `max_files` above " ++
      toString limit ++ " if the project really tracks that many files.")
    limit "tracked file"

namespace Deadline

def start (operation : String) (limit : Option Nat) : Deadline := ⟨operation, limit, 0⟩

def isExpired (deadline : Deadline) : Bool :=
  match deadline.limit with
  | none => false
  | some limit => limit = 0 || limit < deadline.spent

def error (deadline : Deadline) : Error :=
  .timedOut (deadline.limit.getD 0) timeoutGuidance deadline.operation

def check (deadline : Deadline) : Outcome Unit :=
  if deadline.isExpired then .error deadline.error else .ok ()

/-- Run an operation that hands back its deadline, and check that one last time. -/
def run {α : Type} (operation : String) (limit : Nat)
    (body : Deadline → Outcome (α × Deadline)) : Outcome α := do
  let (value, deadline) ← body (start operation (some limit))
  deadline.check
  pure value

end Deadline

end SourceBaseline
