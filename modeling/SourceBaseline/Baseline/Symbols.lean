import SourceBaseline.Baseline.Checksum
import SourceBaseline.Symbol

/-!
# Symbol baselines

A symbol baseline records every symbol of a project. Its document is read record by record: a
record that cannot be read is left out, and so is the entry of a file that is not a list. Only a
document without an object of symbols counts as absent.
-/

set_option autoImplicit false

namespace SourceBaseline

structure SymbolBaseline where
  createdAt : String
  projectRoot : String
  schemaVersion : String
  symbols : SymbolMap
  updatedAt : String
  deriving DecidableEq

namespace SymbolBaseline

def fresh (projectRoot : String) (symbols : SymbolMap) : SymbolBaseline :=
  ⟨"", projectRoot, SourceBaseline.schemaVersion, symbols, ""⟩

def symbolCount (baseline : SymbolBaseline) : Nat :=
  baseline.symbols.values.flatten.length

/-- Read a baseline in which every record must be sound. -/
def decode? (json : Json) : Option SymbolBaseline :=
  match json.fields? ["createdAt", "projectRoot", "schemaVersion", "symbols", "updatedAt"] 5 with
  | some [createdAt, projectRoot, version, symbols, updatedAt] => do
      pure {
        createdAt := ← Json.required Json.text? createdAt
        projectRoot := ← Json.required Json.text? projectRoot
        schemaVersion := ← Json.required Json.text? version
        symbols := ← Json.required (Json.map? (Json.list? Symbol.decode?)) symbols
        updatedAt := ← Json.required Json.text? updatedAt }
  | _ => none

/-- The symbols of each file whose entry is a list, without the records that cannot be read. -/
def soundSymbols (members : List (String × Json)) : SymbolMap :=
  .ofList (members.filterMap fun (file, value) =>
    value.items?.map fun records => (file, records.filterMap Symbol.decode?))

def memberText (json : Json) (name : String) : String :=
  ((json.member? name).bind Json.text?).getD ""

/-- Read what is sound of a baseline. -/
def restore? (json : Json) : Option SymbolBaseline := do
  let members ← (← json.member? "symbols").members?
  let version := memberText json "schemaVersion"
  pure {
    createdAt := memberText json "createdAt"
    projectRoot := memberText json "projectRoot"
    schemaVersion := if version = "" then SourceBaseline.schemaVersion else version
    symbols := soundSymbols members
    updatedAt := memberText json "updatedAt" }

def ofText? (text : String) : Option SymbolBaseline :=
  (Json.parseSound? text).bind fun json => restore? json.settle

def toJson (baseline : SymbolBaseline) : Json :=
  .ofMembers [
    ("createdAt", .ofString baseline.createdAt),
    ("projectRoot", .ofString baseline.projectRoot),
    ("schemaVersion", .ofString baseline.schemaVersion),
    ("symbols", Symbol.mapToJson baseline.symbols),
    ("updatedAt", .ofString baseline.updatedAt)]

def stamp (baseline : SymbolBaseline) (prior : Option String) (now : String) : SymbolBaseline :=
  { baseline with createdAt := firstWritten prior baseline.createdAt now, updatedAt := now }

end SymbolBaseline

def recordedCreation? (text : String) : Option String :=
  (Json.parseSound? text).bind fun json => (json.member? "createdAt").bind Json.text?

end SourceBaseline
