import SourceBaseline.Json.Decode

/-!
# Symbols

A symbol is one declaration found in a source file. Within a snapshot its name and file identify
it. The JSON form leaves out the parts that are missing.
-/

set_option autoImplicit false

namespace SourceBaseline

inductive SymbolKind where
  | classLike
  | commandRegistration
  | constant
  | function
  | interface
  | method
  | record
  | typeAlias
  | binding
  deriving DecidableEq, Inhabited

namespace SymbolKind

def all : List SymbolKind :=
  [.classLike, .commandRegistration, .constant, .function, .interface, .method, .record,
    .typeAlias, .binding]

def text : SymbolKind → String
  | .classLike => "class-like"
  | .commandRegistration => "command-registration"
  | .constant => "constant"
  | .function => "function"
  | .interface => "interface"
  | .method => "method"
  | .record => "struct"
  | .typeAlias => "type-alias"
  | .binding => "variable"

def label : SymbolKind → String
  | .classLike => "ClassLike"
  | .commandRegistration => "CommandRegistration"
  | .constant => "Constant"
  | .function => "Function"
  | .interface => "Interface"
  | .method => "Method"
  | .record => "Struct"
  | .typeAlias => "TypeAlias"
  | .binding => "Variable"

def decode? (json : Json) : Option SymbolKind := do
  let name ← json.variant?
  all.find? (·.text = name)

end SymbolKind

/-- One declaration. Lines count from one and columns, in bytes, from zero. -/
structure Symbol where
  column : UInt32
  doc : Option String
  enclosing : Option String
  file : String
  kind : SymbolKind
  line : UInt32
  name : String
  signature : Option String
  deriving DecidableEq, Inhabited

abbrev SymbolMap := SortedMap String (List Symbol)

namespace Symbol

def decodeCount? (json : Json) : Option UInt32 :=
  (json.natBelow? UInt32.size).map .ofNat

def decode? (json : Json) : Option Symbol :=
  let keys := ["column", "doc", "enclosing", "file", "kind", "line", "name", "signature"]
  match json.fields? keys 7 with
  | some [column, doc, enclosing, file, kind, line, name, signature] => do
      pure {
        column := ← Json.withDefault 0 decodeCount? column
        doc := ← Json.optional Json.text? doc
        enclosing := ← Json.optional Json.text? enclosing
        file := ← Json.required Json.text? file
        kind := ← Json.required SymbolKind.decode? kind
        line := ← Json.required decodeCount? line
        name := ← Json.required Json.text? name
        signature := ← Json.optional Json.text? signature }
  | _ => none

def optionalMember (name : String) (text : Option String) : List (String × Json) :=
  text.toList.map fun value => (name, .ofString value)

def toJson (symbol : Symbol) : Json :=
  .ofMembers (
    [("column", .ofNat symbol.column.toNat)] ++
    optionalMember "doc" symbol.doc ++
    optionalMember "enclosing" symbol.enclosing ++
    [("file", .ofString symbol.file),
     ("kind", .ofString symbol.kind.text),
     ("line", .ofNat symbol.line.toNat),
     ("name", .ofString symbol.name)] ++
    optionalMember "signature" symbol.signature)

def mapToJson (symbols : SymbolMap) : Json :=
  .ofMembers (symbols.entries.map fun (file, found) => (file, .array (found.map toJson)))

end Symbol

end SourceBaseline
