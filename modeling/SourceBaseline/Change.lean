import SourceBaseline.Symbol

/-!
# Changes

A file change says what happened to a file, and a semantic change what happened to a symbol and
whether callers may break. Both have an order in which reports list them.
-/

set_option autoImplicit false

namespace SourceBaseline

inductive FileChangeKind where
  | added
  | deleted
  | modified
  deriving DecidableEq, Inhabited

namespace FileChangeKind

def rank : FileChangeKind → Nat
  | .added => 0
  | .deleted => 1
  | .modified => 2

def text : FileChangeKind → String
  | .added => "added"
  | .deleted => "deleted"
  | .modified => "modified"

end FileChangeKind

structure FileChange where
  kind : FileChangeKind
  file : String
  deriving DecidableEq, Inhabited

namespace FileChange

/-- File changes are listed by file, then by kind. -/
def order (left right : FileChange) : Ordering :=
  (compare left.file right.file).then (compare left.kind.rank right.kind.rank)

def sort (changes : List FileChange) : List FileChange :=
  changes.mergeSort fun left right => (order left right).isLE

def toJson (change : FileChange) : Json :=
  .ofMembers [("changeType", .ofString change.kind.text), ("file", .ofString change.file)]

end FileChange

inductive SymbolChangeKind where
  | added
  | modified
  | removed
  | signatureChanged
  deriving DecidableEq, Inhabited

namespace SymbolChangeKind

def rank : SymbolChangeKind → Nat
  | .added => 0
  | .modified => 1
  | .removed => 2
  | .signatureChanged => 3

def text : SymbolChangeKind → String
  | .added => "added"
  | .modified => "modified"
  | .removed => "removed"
  | .signatureChanged => "signatureChanged"

def label : SymbolChangeKind → String
  | .added => "Added"
  | .modified => "Modified"
  | .removed => "Removed"
  | .signatureChanged => "SignatureChanged"

end SymbolChangeKind

/-- Whether callers that rely on the old shape may break. -/
inductive Severity where
  | breaking
  | nonBreaking
  deriving DecidableEq, Inhabited

namespace Severity

def rank : Severity → Nat
  | .breaking => 0
  | .nonBreaking => 1

def text : Severity → String
  | .breaking => "breaking"
  | .nonBreaking => "non-breaking"

end Severity

/-- A difference between two symbol snapshots. A removed symbol has no line. -/
structure SemanticChange where
  kind : SymbolChangeKind
  file : String
  line : Option UInt32
  name : String
  newSignature : Option String
  oldSignature : Option String
  severity : Severity
  symbolKind : SymbolKind
  deriving DecidableEq, Inhabited

namespace SemanticChange

def listedLine (change : SemanticChange) : Nat :=
  (change.line.map UInt32.toNat).getD 0

/-- Semantic changes are listed breaking first, then by file, line, name and kind. -/
def order (left right : SemanticChange) : Ordering :=
  (compare left.severity.rank right.severity.rank).then
    ((compare left.file right.file).then
      ((compare left.listedLine right.listedLine).then
        ((compare left.name right.name).then (compare left.kind.rank right.kind.rank))))

def sort (changes : List SemanticChange) : List SemanticChange :=
  changes.mergeSort fun left right => (order left right).isLE

def toJson (change : SemanticChange) : Json :=
  .ofMembers [
    ("changeType", .ofString change.kind.text),
    ("file", .ofString change.file),
    ("line", (change.line.map fun line => Json.ofNat line.toNat).getD .null),
    ("name", .ofString change.name),
    ("newSignature", .ofString? change.newSignature),
    ("oldSignature", .ofString? change.oldSignature),
    ("severity", .ofString change.severity.text),
    ("symbolKind", .ofString change.symbolKind.text)]

end SemanticChange

end SourceBaseline
