import SourceBaseline.Language.Declaration

/-!
# Go

Functions, methods with their receiver, types, the methods of interfaces, constants and variables of
a Go file.
-/

set_option autoImplicit false

namespace SourceBaseline.Go

def commentStyle : Source.CommentStyle where
  isComment kind text := kind = "comment" && Text.startsWith text "//"
  skips _ := false
  strip := Source.stripLineComment "//"

def doc? (source : Source) (cursor : SyntaxCursor) : Option String :=
  source.docAbove? commentStyle cursor

/-- A function, or a method if it has a receiver. -/
def functionSymbol? (source : Source) (cursor : SyntaxCursor) (receiver : Option (List Char)) :
    Option Symbol := do
  let node := cursor.node
  let name ← node.fieldText? "name" source.text
  pure { source.symbolAt node name (if receiver.isSome then .method else .function) with
    signature := source.signature? node (node.field? "body")
    enclosing := receiver.map .ofList
    doc := doc? source cursor }

def receiver? (source : Source) (node : SyntaxNode) : Option (List Char) := do
  let type ← (← node.field? "receiver").descendantOfKind? "type_identifier"
  type.text? source.text

/-- The specifications of a kind in nodes on a stack and in the lists below them. -/
def specsOn (kind : String) : List SyntaxNode → List SyntaxCursor
  | [] => []
  | node :: stack =>
      node.namedCursors.filter (·.node.kind = kind) ++
        specsOn kind ((node.namedChildren.filter fun child =>
          child.kind ≠ kind && Text.endsWith child.kind.toList "_list").reverse ++ stack)
termination_by stack => SyntaxNode.sizes stack
decreasing_by
  have lists := SyntaxNode.sizes_filter_le
    (fun child => child.kind ≠ kind && Text.endsWith child.kind.toList "_list") node.namedChildren
  have children := SyntaxNode.sizes_namedChildren_lt node
  simp only [SyntaxNode.sizes_append, SyntaxNode.sizes_reverse, SyntaxNode.sizes]
  omega

def specs (kind : String) (declaration : SyntaxNode) : List SyntaxCursor :=
  (specsOn kind [declaration]).mergeSort fun left right => left.node.start ≤ right.node.start

def specSymbols (source : Source) (kind : SymbolKind) (declaration spec : SyntaxCursor) :
    List Symbol :=
  let type := spec.node.fieldText? "type" source.text
  let doc := (doc? source spec).or (doc? source declaration)
  (spec.node.fieldNodes "name").filterMap fun nameNode =>
    (nameNode.text? source.text).map fun name =>
      { source.symbolAt spec.node name kind with
        signature := type.map fun type => Source.collapsed (name ++ ' ' :: type)
        doc }

def specDeclaration (source : Source) (specKind : String) (kind : SymbolKind)
    (declaration : SyntaxCursor) : List Symbol :=
  (specs specKind declaration.node).flatMap (specSymbols source kind declaration)

def interfaceMethods (source : Source) (owner : List Char) (type : SyntaxNode) : List Symbol :=
  type.namedCursors.filterMap fun member =>
    if member.node.kind = "method_elem" ∨ member.node.kind = "method_spec" then
      (member.node.fieldText? "name" source.text).map fun name =>
        { source.symbolAt member.node name .method with
          signature := source.signature? member.node none
          enclosing := some (.ofList owner)
          doc := doc? source member }
    else none

def typeShape (source : Source) (name : List Char) (spec type : SyntaxNode) :
    SymbolKind × String :=
  let head := (source.signature? spec (some type)).getD (.ofList name)
  if spec.kind = "type_spec" ∧ type.kind = "struct_type" then
    (.record, "type " ++ head ++ " struct")
  else if spec.kind = "type_spec" ∧ type.kind = "interface_type" then
    (.interface, "type " ++ head ++ " interface")
  else (.typeAlias, "type " ++ (source.signature? spec none).getD "")

/-- A type, and its methods if it is an interface. -/
def typeSymbols (source : Source) (declaration spec : SyntaxCursor) : List Symbol :=
  if spec.node.kind = "type_spec" ∨ spec.node.kind = "type_alias" then
    match spec.node.fieldText? "name" source.text, spec.node.field? "type" with
    | some name, some type =>
        let (kind, signature) := typeShape source name spec.node type
        { source.symbolAt spec.node name kind with
          signature := some signature
          doc := (doc? source spec).or (doc? source declaration) } ::
        if kind = .interface then interfaceMethods source name type else []
    | _, _ => []
  else []

def declarationSymbols (source : Source) (declaration : SyntaxCursor) : List Symbol :=
  match declaration.node.kind with
  | "const_declaration" => specDeclaration source "const_spec" .constant declaration
  | "function_declaration" => (functionSymbol? source declaration none).toList
  | "method_declaration" =>
      (functionSymbol? source declaration (receiver? source declaration.node)).toList
  | "type_declaration" => declaration.node.namedCursors.flatMap (typeSymbols source declaration)
  | "var_declaration" => specDeclaration source "var_spec" .binding declaration
  | _ => []

def symbols (source : Source) (root : SyntaxNode) : List Symbol :=
  root.namedCursors.flatMap (declarationSymbols source)

end SourceBaseline.Go
