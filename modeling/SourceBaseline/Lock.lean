import SourceBaseline.Host
import SourceBaseline.Target

/-!
# Locks

A lock is a file beside a document that holds the token of its holder. Only the holder whose token
is still in the file removes it. A lock of ten minutes or more belongs to a process that is gone: it
is set aside under another name, removed and taken anew. The other name is longer by the token, so a
lock whose name is nearly as long as a name may be stays where it is.
-/

set_option autoImplicit false

namespace SourceBaseline

/-- Locks of this age, in seconds, are stale. -/
def staleAge : Nat := 600

/-- The waiting time for a lock where none is set, in milliseconds. -/
def defaultLockTimeout : Nat := 10000

/-- A lock that somebody took: what it guards, and the token in its file. -/
structure Lock where
  target : Target
  token : String
  deriving DecidableEq, Inhabited

namespace Lock

def staleText? (disk : Disk) (route : Route) : Option String :=
  match disk.inspect route with
  | .ok (.file content age) => if staleAge ≤ age then String.fromUTF8? content else none
  | _ => none

/-- Where a stale lock file is set aside. -/
def grave (file : Target) (token : String) : Target :=
  file.renamed (file.name ++ ".stale-" ++ token)

def breakStale (file : Target) (token : String) (disk : Disk) : Option Disk :=
  match staleText? disk file.route, disk.rename file.route (grave file token).route with
  | some _, .ok moved => (moved.removeFile (grave file token).route).toOption
  | _, _ => none

/-- Create the lock file. A stale one is broken first; one that is held by somebody else is waited
for in vain. -/
def take (file : Target) (token : String) (timeout : Nat) (disk : Disk) : Outcome Disk :=
  match disk.createFile file.route token.toUTF8 with
  | .ok taken => .ok taken
  | .error .exists =>
      match breakStale file token disk with
      | some broken => Outcome.ofDisk (broken.createFile file.route token.toUTF8)
      | none => .error (.locked file.name timeout)
  | .error fault => .error (.disk fault)

/-- Take the lock of a target, and create its directory first. -/
def acquire (target : Target) (timeout : Nat) : Action Lock := do
  Action.ensureDirectory target.lock.directories
  let token ← Action.freshToken
  fun host =>
    match take target.lock token timeout host.disk with
    | .ok disk => (.ok ⟨target, token⟩, { host with disk })
    | .error error => (.error error, host)

def isHeld (lock : Lock) (disk : Disk) : Bool :=
  match disk.readText lock.target.lock.route with
  | .ok text => text = lock.token
  | .error _ => false

def drop (lock : Lock) (disk : Disk) : Disk :=
  if lock.isHeld disk then (disk.removeFile lock.target.lock.route).toOption.getD disk else disk

def release (lock : Lock) : Action Unit :=
  Action.change fun disk => .ok (lock.drop disk)

def holding {α : Type} (target : Target) (timeout : Nat) (body : Lock → Action α) : Action α := do
  let lock ← acquire target timeout
  Action.ensuring (body lock) lock.release

end Lock

end SourceBaseline
