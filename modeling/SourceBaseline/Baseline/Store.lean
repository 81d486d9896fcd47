import SourceBaseline.Baseline.Symbols
import SourceBaseline.Lock
import SourceBaseline.Staging

/-!
# Storing baselines

A baseline is loaded without a lock; a document that is missing or unusable counts as absent. It is
saved under its lock: the time of the first save is read from the document that stands at the
target, and the new document is staged and put in its place.
-/

set_option autoImplicit false

namespace SourceBaseline

def loadText? (disk : Disk) (route : Route) : Outcome (Option String) :=
  match disk.readText route with
  | .ok text => .ok (some text)
  | .error .notFound => .ok none
  | .error fault => .error (.disk fault)

def ChecksumBaseline.load (disk : Disk) (route : Route) : Outcome (Option ChecksumBaseline) := do
  pure ((← loadText? disk route).bind ofText?)

def SymbolBaseline.load (disk : Disk) (route : Route) : Outcome (Option SymbolBaseline) := do
  pure ((← loadText? disk route).bind ofText?)

/-- The time at which the document at a place was first written, if it records one. -/
def creationOnRecord? (disk : Disk) (route : Route) : Option String :=
  (disk.readText route).toOption.bind recordedCreation?

/-- What is saved as a document. `stamped` prepares it for a save at a time, where the document
before it may record the time of the first save. -/
class Document (α : Type) where
  stamped : α → Option String → String → α
  toJson : α → Json

instance : Document ChecksumBaseline where
  stamped baseline := baseline.recount.stamp
  toJson := ChecksumBaseline.toJson

instance : Document SymbolBaseline where
  stamped := SymbolBaseline.stamp
  toJson := SymbolBaseline.toJson

namespace Document

def bytes {α : Type} [Document α] (document : α) : ByteArray :=
  (documentText (toJson document)).toUTF8

def stage {α : Type} [Document α] (lock : Lock) (document : α) : Action (α × StagedWrite) := do
  let host ← get
  let document := stamped document (creationOnRecord? host.disk lock.target.route) host.now
  pure (document, ← StagedWrite.stage lock.target (bytes document))

/-- Save a document under its lock. The result is the document with its stamps. -/
def save {α : Type} [Document α] (target : Target) (document : α) (timeout : Nat) : Action α :=
  Lock.holding target timeout fun lock => do
    let (document, staged) ← stage lock document
    staged.commit
    pure document

end Document

end SourceBaseline
