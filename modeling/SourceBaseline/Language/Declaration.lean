import SourceBaseline.Symbol
import SourceBaseline.SyntaxTree
import SourceBaseline.Text.Blank
import SourceBaseline.Text.Lines

/-!
# Declarations

What the languages share: where a declaration stands, its header as a signature, and the comments
directly above it as its documentation.
-/

set_option autoImplicit false

namespace SourceBaseline

structure Source where
  file : String
  text : List Char
  deriving Inhabited

namespace Source

/-- A number as a count of 32 bits; greater numbers count as the greatest. -/
def cappedCount (value : Nat) : UInt32 :=
  .ofNat (min value (UInt32.size - 1))

def symbolAt (source : Source) (node : SyntaxNode) (name : List Char) (kind : SymbolKind) :
    Symbol where
  column := cappedCount (Text.columnAt node.start source.text)
  doc := none
  enclosing := none
  file := source.file
  kind
  line := cappedCount (node.startRow source.text + 1)
  name := .ofList name
  signature := none

def isTrailingMark (char : Char) : Bool :=
  char = ':' || char = '\x7b' || char = '=' || char = ';' || char = ' '

/-- The signature that a header text comes to, if anything is left of it. -/
def signatureOf? (header : List Char) : Option String :=
  match Text.dropTrailing isTrailingMark (Text.collapse header) with
  | [] => none
  | text => some (.ofList text)

/-- The signature of a declaration: its text up to its body, or all of it without one. -/
def signature? (source : Source) (node : SyntaxNode) (body : Option SyntaxNode) :
    Option String :=
  (Text.slice? source.text node.start ((body.map SyntaxNode.start).getD node.stop)).bind
    signatureOf?

def nonempty? (text : List Char) : Option String :=
  if text = [] then none else some (.ofList text)

/-- Which siblings above a declaration document it, and what is kept of them. -/
structure CommentStyle where
  isComment : String → List Char → Bool
  skips : String → Bool
  strip : List Char → List Char

/-- The comments above row `expected`, from the nearest sibling on, the nearest last. A comment
that does not touch what is below it ends the block; nothing is documented if a sibling has no
text. -/
def commentsAbove? (source : Source) (style : CommentStyle) :
    Nat → List SyntaxNode → Option (List (List Char))
  | _, [] => some []
  | expected, sibling :: rest =>
      if style.skips sibling.kind then
        commentsAbove? source style (sibling.startRow source.text) rest
      else
        match sibling.text? source.text with
        | none => none
        | some text =>
            if !style.isComment sibling.kind text ∨ sibling.endRow source.text + 1 < expected then
              some []
            else
              (commentsAbove? source style (sibling.startRow source.text) rest).map
                (· ++ [style.strip text])

def docAbove? (source : Source) (style : CommentStyle) (cursor : SyntaxCursor) : Option String :=
  (source.commentsAbove? style (cursor.node.startRow source.text) cursor.before).bind fun found =>
    nonempty? (Text.trim (Text.unlines found))

def stripLineComment (marker : String) (text : List Char) : List Char :=
  Text.trim (Text.dropLeading marker.toList (Text.trim text))

/-- A block comment without its frame and the stars in front of its lines. -/
def stripBlockComment (text : List Char) : List Char :=
  let inner := Text.dropEnding "*/".toList
    (Text.dropLeading "/*".toList (Text.dropLeading "/**".toList (Text.trim text)))
  let bare := fun line => Text.trim ((Text.trim line).dropWhile (· = '*'))
  Text.unlines (((Text.lines inner).map bare).filter (· ≠ []))

def quotes : List (List Char) :=
  ["\"\"\"".toList, [Char.ofNat 39, Char.ofNat 39, Char.ofNat 39], ['"'], [Char.ofNat 39],
    [Char.ofNat 96]]

def between? (quote text : List Char) : Option (List Char) :=
  (Text.afterPrefix? quote text).bind (Text.beforeSuffix? quote)

/-- The content of a string literal; a text without quotes is its own content. -/
def unquote (text : List Char) : List Char :=
  let trimmed := Text.trim text
  (quotes.findSome? (between? · trimmed)).getD trimmed

/-- Whether a name is written in capitals, digits and underscores, with a letter among them. -/
def isScreaming (name : List Char) : Bool :=
  name.any Char.isAlpha && name.all fun char => char.isUpper || char.isDigit || char = '_'

def collapsed (text : List Char) : String :=
  .ofList (Text.collapse text)

end Source

end SourceBaseline
