import SourceBaseline.Deadline
import SourceBaseline.Registry
import SourceBaseline.Walk

/-!
# Extracting symbols

The symbols of every tracked file that has a language, in the order in which they stand. A file that
cannot be read or parsed is left out with the reason and never stops the others. Files without a
language and files without symbols are left out in silence.
-/

set_option autoImplicit false

namespace SourceBaseline

/-- Files of more bytes than this are not read for symbols. -/
def sourceSizeLimit : Nat := 16 * 1024 * 1024

/-- Why a file has no symbols. What is registered for it may fail to parse a text for a cause in `ε`;
the languages never do. -/
inductive SkipReason (ε : Type := Empty) where
  | notText
  | parseFailed (cause : ε)
  | tooLarge (size : Nat)
  | unreadable (cause : String)
  | unsupported
  deriving DecidableEq, Inhabited

def SkipReason.description : SkipReason → String
  | .notText => "NotText"
  | .tooLarge size => "TooLarge(" ++ toString size ++ ")"
  | .unreadable cause => "Unreadable(" ++ Text.quoted cause ++ ")"
  | .unsupported => "Unsupported"

/-- The symbols of each file that has some, and the files that were left out with the reason. -/
structure Extraction (ε : Type := Empty) where
  symbols : SymbolMap
  skipped : List (String × SkipReason ε)
  deriving DecidableEq

namespace Symbol

/-- Symbols of a file are listed by line, column and name. -/
def position (left right : Symbol) : Ordering :=
  (compare left.line.toNat right.line.toNat).then
    ((compare left.column.toNat right.column.toNat).then (compare left.name right.name))

def sort (symbols : List Symbol) : List Symbol :=
  symbols.mergeSort fun left right => (position left right).isLE

end Symbol

variable {α ε : Type}

/-- What finds the symbols in a source, for each that may be registered, or says why it cannot. -/
abbrev Adapter (α ε : Type) := α → Source → Except ε (List Symbol)

def readSource (disk : Disk) (route : Route) : Except (SkipReason ε) String :=
  match disk.inspect route with
  | .error fault => .error (.unreadable (Error.disk fault).message)
  | .ok (.file content _) =>
      if sourceSizeLimit < content.size then .error (.tooLarge content.size)
      else
        match String.fromUTF8? content with
        | some text => .ok text
        | none => .error .notText
  | .ok _ => .error (.unreadable Fault.isDirectory.kindText)

def Extraction.record (extraction : Extraction ε) (file : String) :
    Except (SkipReason ε) (List Symbol) → Extraction ε
  | .ok [] => extraction
  | .ok symbols => { extraction with symbols := extraction.symbols.insert file symbols }
  | .error .unsupported => extraction
  | .error reason => { extraction with skipped := extraction.skipped ++ [(file, reason)] }

namespace Registry

def extractFile (registry : Registry α) (adapter : Adapter α ε) (disk : Disk) (relative : String)
    (absolute : Route) : Except (SkipReason ε) (List Symbol) :=
  match registry.languageOf? relative with
  | none => .error .unsupported
  | some language => do
      let text ← readSource disk absolute
      let symbols ← (adapter language ⟨relative, text.toList⟩).mapError .parseFailed
      pure (Symbol.sort symbols)

def extract (registry : Registry α) (adapter : Adapter α ε) (disk : Disk)
    (files : List TrackedFile) (deadline : Deadline) : Outcome (Extraction ε) :=
  files.foldlM
    (fun extraction file => do
      deadline.check
      pure (extraction.record file.relative
        (registry.extractFile adapter disk file.relative file.absolute.route)))
    ⟨.empty, []⟩

end Registry

structure Extractor where
  registry : Registry
  grammar : Grammar

namespace Extractor

/-- Every language finds its symbols in every source. -/
def adapter (extractor : Extractor) : Adapter Language Empty := fun language source =>
  .ok (language.symbols extractor.grammar source)

def extractFile (extractor : Extractor) (disk : Disk) (relative : String) (absolute : Route) :
    Except SkipReason (List Symbol) :=
  extractor.registry.extractFile extractor.adapter disk relative absolute

def extract (extractor : Extractor) (disk : Disk) (files : List TrackedFile)
    (deadline : Deadline) : Outcome Extraction :=
  extractor.registry.extract extractor.adapter disk files deadline

end Extractor

end SourceBaseline
