import SourceBaseline.Language.Declaration

/-!
# Shell

Functions, assignments and aliases at the top of a shell script. Of several with one name only the
first counts.
-/

set_option autoImplicit false

namespace SourceBaseline.Shell

/-- Comments document a statement, but not the line that names the interpreter. -/
def commentStyle : Source.CommentStyle where
  isComment kind text := kind = "comment" && !Text.startsWith text "#!"
  skips _ := false
  strip := Source.stripLineComment "#"

def doc? (source : Source) (cursor : SyntaxCursor) : Option String :=
  source.docAbove? commentStyle cursor

/-- An alias registers a command. -/
def aliasSymbol? (source : Source) (cursor : SyntaxCursor) : Option Symbol := do
  let node := cursor.node
  let command ← node.fieldText? "name" source.text
  if Text.trim command ≠ "alias".toList then none
  let argument ← (← node.field? "argument").text? source.text
  let (name, _) ← Text.splitOnce? '=' argument
  pure { source.symbolAt node (Text.trim name) .commandRegistration with
    signature := source.signature? node none
    doc := doc? source cursor }

/-- An assignment, with the documentation that it is to carry. -/
def assignmentSymbol? (source : Source) (kind : SymbolKind) (doc : Option String)
    (node : SyntaxNode) : Option Symbol :=
  (node.fieldText? "name" source.text).map fun name => { source.symbolAt node name kind with doc }

/-- The assignments of a declaration command; those of `readonly` are constants. -/
def declarationSymbols (source : Source) (cursor : SyntaxCursor) : List Symbol :=
  let keyword := (cursor.node.children.head?.bind fun child => child.text? source.text).getD []
  let kind := if keyword = "readonly".toList then .constant else .binding
  (cursor.node.namedChildren.filter (·.kind = "variable_assignment")).filterMap
    (assignmentSymbol? source kind (doc? source cursor))

def functionSymbol? (source : Source) (cursor : SyntaxCursor) : Option Symbol := do
  let node := cursor.node
  let name ← node.fieldText? "name" source.text
  pure { source.symbolAt node name .function with
    signature := source.signature? node (node.field? "body")
    doc := doc? source cursor }

def statementSymbols (source : Source) (cursor : SyntaxCursor) : List Symbol :=
  match cursor.node.kind with
  | "command" => (aliasSymbol? source cursor).toList
  | "declaration_command" => declarationSymbols source cursor
  | "function_definition" => (functionSymbol? source cursor).toList
  | "variable_assignment" =>
      (assignmentSymbol? source .binding (doc? source cursor) cursor.node).toList
  | _ => []

def firstsByName : List Symbol → List Symbol
  | [] => []
  | symbol :: rest => symbol :: (firstsByName rest).filter (·.name ≠ symbol.name)

def symbols (source : Source) (root : SyntaxNode) : List Symbol :=
  firstsByName (root.namedCursors.flatMap (statementSymbols source))

end SourceBaseline.Shell
