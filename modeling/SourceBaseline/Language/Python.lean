import SourceBaseline.Language.Declaration

/-!
# Python

Functions, classes with their methods and nested classes, and assignments at the top of a Python
file. Of several assignments to one name only the first counts.
-/

set_option autoImplicit false

namespace SourceBaseline.Python

def isLiteralMark (char : Char) : Bool :=
  "rRuUbBfF".toList.contains char

/-- The string literal that is the first statement of a body. -/
def docstring? (source : Source) (body : SyntaxNode) : Option String := do
  let statement ← body.firstNamed?.filter (·.kind = "expression_statement")
  let literal ← statement.firstNamed?.filter (·.kind = "string")
  let raw := (← literal.text? source.text).dropWhile isLiteralMark
  Source.nonempty? (Text.trim (Text.unlines ((Text.lines (Source.unquote raw)).map Text.trim)))

/-- The name that a decorator applies, without what is passed to it. -/
def decoratorTarget (text : List Char) : List Char :=
  let bare := (Text.trim text).dropWhile (· = '@')
  Text.trim (bare.takeWhile (· ≠ '('))

/-- Whether a definition carries a decorator that registers a command. -/
def isCommand (source : Source) (decorated : SyntaxNode) : Bool :=
  decorated.namedChildren.any fun child =>
    child.kind = "decorator" &&
      let target := decoratorTarget ((child.text? source.text).getD [])
      target = "command".toList || Text.endsWith target ".command"

def functionSymbol? (source : Source) (enclosing : Option String) (command : Bool)
    (node : SyntaxNode) : Option Symbol := do
  let name ← node.fieldText? "name" source.text
  let kind := if command then .commandRegistration
    else if enclosing.isSome then .method else .function
  let body := node.field? "body"
  pure { source.symbolAt node name kind with
    signature := source.signature? node body
    enclosing
    doc := body.bind (docstring? source) }

def classSymbol (source : Source) (enclosing : Option String) (name : List Char)
    (node : SyntaxNode) : Symbol :=
  let body := node.field? "body"
  { source.symbolAt node name .classLike with
    signature := source.signature? node body
    enclosing
    doc := body.bind (docstring? source) }

def assignmentSymbol? (source : Source) (statement : SyntaxNode) : Option Symbol := do
  let assignment ← statement.firstNamed?.filter (·.kind = "assignment")
  let name ← (← assignment.fieldOfKind? "left" "identifier").text? source.text
  let type := assignment.fieldText? "type" source.text
  let kind := if Source.isScreaming name then .constant else .binding
  pure { source.symbolAt statement name kind with
    signature := type.map fun type => Source.collapsed (name ++ ':' :: ' ' :: type) }

mutual

def classSymbols (source : Source) (enclosing : Option String) (node : SyntaxNode) :
    List Symbol :=
  match node.fieldText? "name" source.text with
  | none => []
  | some name =>
      classSymbol source enclosing name node ::
        match _found : node.field? "body" with
        | none => []
        | some body =>
            body.namedChildren.attach.flatMap fun child =>
              definitionSymbols source (some (.ofList name)) child.1
termination_by 2 * node.size
decreasing_by
  have bodySmaller := SyntaxNode.size_lt_of_field? _found
  have childSmaller := SyntaxNode.size_lt_of_mem_namedChildren child.2
  omega

def definitionSymbols (source : Source) (enclosing : Option String) (node : SyntaxNode) :
    List Symbol :=
  match node.kind with
  | "class_definition" => classSymbols source enclosing node
  | "decorated_definition" =>
      match _found : node.field? "definition" with
      | none => []
      | some definition =>
          if definition.kind = "class_definition" then classSymbols source enclosing definition
          else (functionSymbol? source enclosing (isCommand source node) definition).toList
  | "function_definition" => (functionSymbol? source enclosing false node).toList
  | _ => []
termination_by 2 * node.size + 1
decreasing_by
  · omega
  · have smaller := SyntaxNode.size_lt_of_field? _found
    omega

end

def declaresAtTop (found : List Symbol) (name : String) : Bool :=
  found.any fun symbol => symbol.name = name && symbol.enclosing.isNone

def addStatement (source : Source) (found : List Symbol) (statement : SyntaxNode) : List Symbol :=
  if statement.kind = "expression_statement" then
    match assignmentSymbol? source statement with
    | some symbol => if declaresAtTop found symbol.name then found else found ++ [symbol]
    | none => found
  else found ++ definitionSymbols source none statement

def symbols (source : Source) (root : SyntaxNode) : List Symbol :=
  root.namedChildren.foldl (addStatement source) []

end SourceBaseline.Python
