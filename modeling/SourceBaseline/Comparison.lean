import SourceBaseline.Change
import SourceBaseline.Visibility

/-!
# Comparing snapshots

File snapshots are compared by hash. Symbol snapshots are compared by name and file, where the
first symbol of several with one name and file counts.
-/

set_option autoImplicit false

namespace SourceBaseline

/-- The change of a file that has `hash` now, against the old snapshot. -/
def fileChange? (old : SortedMap String String) (file hash : String) : Option FileChange :=
  match old.find? file with
  | none => some ⟨.added, file⟩
  | some previous => if previous = hash then none else some ⟨.modified, file⟩

def compareChecksums (old new : SortedMap String String) : List FileChange :=
  FileChange.sort (
    new.entries.filterMap (fun (file, hash) => fileChange? old file hash) ++
    (old.keys.filter (!new.contains ·)).map (⟨.deleted, ·⟩))

namespace Symbol

/-- Whether two symbols have the same name and file. -/
def sameIdentity (left right : Symbol) : Bool :=
  left.name = right.name && left.file = right.file

/-- The first symbol of each name and file, in order. -/
def firsts : List Symbol → List Symbol
  | [] => []
  | symbol :: rest => symbol :: (firsts rest).filter (!sameIdentity symbol ·)

def index (snapshot : SymbolMap) : List Symbol :=
  firsts snapshot.values.flatten

end Symbol

/-- A change that describes `current`, which had the signature `oldSignature` before. -/
def changeOf (current : Symbol) (kind : SymbolChangeKind) (oldSignature : Option String)
    (severity : Severity) : SemanticChange where
  kind
  file := current.file
  line := some current.line
  name := current.name
  newSignature := current.signature
  oldSignature
  severity
  symbolKind := current.kind

def symbolChange? (policy : VisibilityPolicy) (old : List Symbol) (current : Symbol) :
    Option SemanticChange :=
  match old.find? (Symbol.sameIdentity current) with
  | none => some (changeOf current .added none .nonBreaking)
  | some previous =>
      if previous.signature ≠ current.signature then
        let severity := if policy.isPublic current then .breaking else .nonBreaking
        some (changeOf current .signatureChanged previous.signature severity)
      else if previous.line ≠ current.line ∨ previous.enclosing ≠ current.enclosing ∨
          previous.doc ≠ current.doc then
        some (changeOf current .modified previous.signature .nonBreaking)
      else none

def removalOf (previous : Symbol) : SemanticChange where
  kind := .removed
  file := previous.file
  line := none
  name := previous.name
  newSignature := none
  oldSignature := previous.signature
  severity := .breaking
  symbolKind := previous.kind

def compareSymbols (old new : SymbolMap) (policy : VisibilityPolicy) : List SemanticChange :=
  let oldIndex := Symbol.index old
  let newIndex := Symbol.index new
  SemanticChange.sort (
    newIndex.filterMap (symbolChange? policy oldIndex) ++
    (oldIndex.filter fun previous => !newIndex.any previous.sameIdentity).map removalOf)

end SourceBaseline
