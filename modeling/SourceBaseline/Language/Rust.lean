import SourceBaseline.Language.Declaration

/-!
# Rust

The items of a Rust file and of its inline modules, and the members of implementations and traits.
Nothing inside a function is an item.
-/

set_option autoImplicit false

namespace SourceBaseline.Rust

/-- Documentation comments document an item, also above its attributes. -/
def commentStyle : Source.CommentStyle where
  isComment kind text :=
    (kind = "line_comment" && Text.startsWith text "///" && !Text.startsWith text "////") ||
      (kind = "block_comment" && Text.startsWith text "/**")
  skips kind := kind = "attribute_item"
  strip text :=
    if Text.startsWith text "/**" then Source.stripBlockComment text
    else Source.stripLineComment "///" text

/-- A named item. Its signature stops at its body or its value, and that of an alias at its end. -/
def itemSymbol? (source : Source) (cursor : SyntaxCursor) (kind : SymbolKind) : Option Symbol := do
  let node := cursor.node
  let name ← node.fieldText? "name" source.text
  let cut := if kind = .typeAlias then none else (node.field? "body").or (node.field? "value")
  pure { source.symbolAt node name kind with
    signature := source.signature? node cut
    doc := source.docAbove? commentStyle cursor }

def memberKind? (kind : String) : Option SymbolKind :=
  match kind with
  | "const_item" => some .constant
  | "function_item" | "function_signature_item" => some .method
  | "type_item" => some .typeAlias
  | _ => none

def memberSymbols (source : Source) (owner : String) (body : SyntaxNode) : List Symbol :=
  body.namedCursors.filterMap fun member => do
    let symbol ← itemSymbol? source member (← memberKind? member.node.kind)
    pure { symbol with enclosing := some owner }

/-- The name of a type without its arguments and without marks of reference in front. -/
def baseTypeName (text : List Char) : String :=
  let head := Text.trim (text.takeWhile (· ≠ '<'))
  .ofList (Text.trim ((head.dropWhile (· = '&')).dropWhile (· = '*')))

def implementationSymbols (source : Source) (node : SyntaxNode) : List Symbol :=
  match node.fieldText? "type" source.text, node.field? "body" with
  | some type, some body => memberSymbols source (baseTypeName type) body
  | _, _ => []

def itemKind? (kind : String) : Option SymbolKind :=
  match kind with
  | "const_item" | "static_item" => some .constant
  | "enum_item" => some .classLike
  | "function_item" | "function_signature_item" => some .function
  | "struct_item" | "union_item" => some .record
  | "trait_item" => some .interface
  | "type_item" => some .typeAlias
  | _ => none

/-- An item, and its members if it is a trait. -/
def ownSymbols (source : Source) (cursor : SyntaxCursor) : List Symbol :=
  match (itemKind? cursor.node.kind).bind (itemSymbol? source cursor) with
  | none => []
  | some symbol =>
      symbol :: match symbol.kind, cursor.node.field? "body" with
        | .interface, some body => memberSymbols source symbol.name body
        | _, _ => []

def containerSymbols (source : Source) (container : SyntaxNode) : List Symbol :=
  container.namedCursors.attach.flatMap fun cursor =>
    match cursor.1.node.kind with
    | "impl_item" => implementationSymbols source cursor.1.node
    | "mod_item" =>
        match _found : cursor.1.node.field? "body" with
        | none => []
        | some body => containerSymbols source body
    | _ => ownSymbols source cursor.1
termination_by container.size
decreasing_by
  have bodySmaller := SyntaxNode.size_lt_of_field? _found
  have childSmaller := SyntaxNode.size_lt_of_mem_namedCursors cursor.2
  omega

def symbols (source : Source) (root : SyntaxNode) : List Symbol :=
  containerSymbols source root

end SourceBaseline.Rust
