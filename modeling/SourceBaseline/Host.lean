import SourceBaseline.Disk.Change
import SourceBaseline.Git

/-!
# Hosts and actions

A host is what the operations of a project act on. An action may change it and may be given up; the
changes made before it is given up stay. What only reads the host is a plain function of it.
-/

set_option autoImplicit false

namespace SourceBaseline

/-- The mark with which the tokens of a holder of locks begin. It can stand in the name of a file. -/
structure Holder where
  text : String
  undivided : '/' ∉ text.toList
  deriving DecidableEq

def Holder.ofText? (text : String) : Option Holder :=
  if undivided : '/' ∉ text.toList then some ⟨text, undivided⟩ else none

/-- A disk, the answers of git, the time, the mark of the holder of its locks, and the number of tokens
that have been given out. -/
structure Host where
  disk : Disk
  git : Git
  now : String
  holder : Holder
  tokens : Nat

/-- The mark of a holder that has no other: the number of a process and the time of its start in
nanoseconds. -/
def standardHolder : Holder := ⟨"31337-1767225600000000000", by decide⟩

/-- A step that may change the host and may be given up. -/
abbrev Action (α : Type) := ExceptT Error (StateM Host) α

namespace Action

def read {α : Type} (question : Host → Outcome α) : Action α :=
  fun host => (question host, host)

def change (step : Disk → Except Fault Disk) : Action Unit := fun host =>
  match step host.disk with
  | .ok disk => (.ok (), { host with disk })
  | .error fault => (.error (.disk fault), host)

def ensureDirectory (routes : List Route) : Action Unit := fun host =>
  let (result, disk) := host.disk.ensureDirectory routes
  (Outcome.ofDisk result, { host with disk })

def removeAll (route : Route) : Action Unit := fun host =>
  let (result, disk) := host.disk.removeAll route
  (Outcome.ofDisk result, { host with disk })

/-- Run an action and then, whatever it came to, another one that cannot give it up. -/
def ensuring {α : Type} (body : Action α) (cleanup : Action Unit) : Action α := fun host =>
  let (result, later) := body host
  (result, (cleanup later).2)

/-- Run an action and, if it is given up, another one that cannot change its error. -/
def onError {α : Type} (body : Action α) (cleanup : Action Unit) : Action α := fun host =>
  match body host with
  | (.ok value, later) => (.ok value, later)
  | (.error error, later) => (.error error, (cleanup later).2)

/-- A text that no other holder of a lock has. -/
def freshToken : Action String := fun host =>
  (.ok (host.holder.text ++ "-" ++ toString host.tokens), { host with tokens := host.tokens + 1 })

end Action

end SourceBaseline
