import SourceBaseline.Language.Declaration

/-!
# TypeScript and JavaScript

The declarations at the top of a file, exported or not, the methods of classes, and the commands
that are registered anywhere in it.
-/

set_option autoImplicit false

namespace SourceBaseline.TypeScript

def doc? (source : Source) (anchor : SyntaxCursor) : Option String := do
  let previous ← anchor.before.head?.filter (·.kind = "comment")
  if previous.endRow source.text + 1 < anchor.node.startRow source.text then none
  let text ← previous.text? source.text
  if !Text.startsWith text "/**" then none
  Source.nonempty? (Source.stripBlockComment text)

def isMethod (kind : String) : Bool :=
  ["abstract_method_signature", "method_definition", "method_signature"].contains kind

def memberSymbols (source : Source) (owner : String) (body : SyntaxNode) : List Symbol :=
  body.namedCursors.filterMap fun member =>
    if isMethod member.node.kind then
      (member.node.fieldText? "name" source.text).map fun name =>
        { source.symbolAt member.node name .method with
          signature := source.signature? member.node (member.node.field? "body")
          enclosing := some owner
          doc := doc? source member }
    else none

def isFunction (kind : String) : Bool :=
  ["arrow_function", "function_expression", "function", "generator_function"].contains kind

/-- The parameters of a function value as they stand in its signature. -/
def parameters (source : Source) (value : SyntaxNode) : List Char :=
  match value.fieldText? "parameters" source.text with
  | some text => text
  | none =>
      match value.fieldText? "parameter" source.text with
      | some text => '(' :: (text ++ [')'])
      | none => ['(', ')']

def functionVariable (source : Source) (declarator value : SyntaxNode) (name : List Char)
    (doc : Option String) : Symbol :=
  let returns := (value.fieldText? "return_type" source.text).getD []
  { source.symbolAt declarator name .function with
    signature := some (Source.collapsed (name ++ parameters source value ++ returns))
    doc }

def plainVariable (source : Source) (declarator : SyntaxNode) (constant : Bool)
    (name : List Char) (doc : Option String) : Symbol :=
  let type := declarator.fieldText? "type" source.text
  { source.symbolAt declarator name (if constant then .constant else .binding) with
    signature := type.map fun type => Source.collapsed (name ++ type)
    doc }

/-- The variable of a declarator whose target is a plain name. -/
def declared? (source : Source) (constant : Bool) (doc : Option String)
    (declarator : SyntaxNode) : Option Symbol := do
  if declarator.kind ≠ "variable_declarator" then none
  let name ← (← declarator.fieldOfKind? "name" "identifier").text? source.text
  match (declarator.field? "value").filter (isFunction ·.kind) with
  | some value => pure (functionVariable source declarator value name doc)
  | none => pure (plainVariable source declarator constant name doc)

def variableSymbols (source : Source) (node : SyntaxNode) (anchor : SyntaxCursor) :
    List Symbol :=
  let keyword := (node.children.head?.bind fun child => child.text? source.text).getD "var".toList
  node.namedChildren.filterMap
    (declared? source (keyword = "const".toList) (doc? source anchor))

def declarationKind? (kind : String) : Option SymbolKind :=
  match kind with
  | "abstract_class_declaration" | "class_declaration" | "enum_declaration" => some .classLike
  | "function_declaration" | "function_signature" | "generator_function_declaration" =>
      some .function
  | "interface_declaration" => some .interface
  | "type_alias_declaration" => some .typeAlias
  | _ => none

def hasMembers (kind : String) : Bool :=
  kind = "abstract_class_declaration" || kind = "class_declaration"

/-- A named declaration, and its methods if it is a class. `anchor` is what comments stand above. -/
def namedSymbols (source : Source) (node : SyntaxNode) (anchor : SyntaxCursor) : List Symbol :=
  match declarationKind? node.kind, node.fieldText? "name" source.text with
  | some kind, some name =>
      let body := if kind = .typeAlias then none else node.field? "body"
      { source.symbolAt node name kind with
        signature := source.signature? node body
        doc := doc? source anchor } ::
      match body with
      | some body =>
          if hasMembers node.kind then memberSymbols source (.ofList name) body else []
      | none => []
  | _, _ => []

def declarationSymbols (source : Source) (node : SyntaxNode) (anchor : SyntaxCursor) :
    List Symbol :=
  if node.kind = "lexical_declaration" ∨ node.kind = "variable_declaration" then
    variableSymbols source node anchor
  else namedSymbols source node anchor

def statementSymbols (source : Source) (statement : SyntaxCursor) : List Symbol :=
  if statement.node.kind = "export_statement" then
    match statement.node.field? "declaration" with
    | some declaration => declarationSymbols source declaration statement
    | none => []
  else declarationSymbols source statement.node statement

def callee? (source : Source) (call : SyntaxNode) : Option (List Char) := do
  let callee ← call.field? "function"
  match callee.kind with
  | "member_expression" => callee.fieldText? "property" source.text
  | "identifier" => callee.text? source.text
  | _ => none

/-- The command that a call registers under a literal name. -/
def registration? (source : Source) (call : SyntaxNode) : Option Symbol := do
  if call.kind ≠ "call_expression" then none
  let method ← callee? source call
  if method ≠ "registerCommand".toList ∧ method ≠ "registerTextEditorCommand".toList then none
  let first ← (← call.field? "arguments").firstNamed?.filter (·.kind = "string")
  match Source.unquote (← first.text? source.text) with
  | [] => none
  | id => pure (source.symbolAt call id .commandRegistration)

def firstRegistrations : List Symbol → List Symbol
  | [] => []
  | symbol :: rest => symbol :: (firstRegistrations rest).filter (·.name ≠ symbol.name)

def registrations (source : Source) (root : SyntaxNode) : List Symbol :=
  firstRegistrations ((SyntaxNode.visit (fun _ => true) [root]).filterMap (registration? source))

def symbols (source : Source) (root : SyntaxNode) : List Symbol :=
  root.namedCursors.flatMap (statementSymbols source) ++ registrations source root

end SourceBaseline.TypeScript
