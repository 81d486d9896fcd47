import SourceBaseline.Language.Shell
import SourceBaseline.Text.Letter

/-!
# Markdown

The shell symbols in fenced code blocks that are tagged with a shell. In console blocks the prompts
are stripped, so that the commands read as a script.
-/

set_option autoImplicit false

namespace SourceBaseline.Markdown

/-- The tags of blocks that hold a script or a console session. -/
def shellTags : List String :=
  ["bash", "console", "sh", "shell", "shell-session", "zsh"]

def consoleTags : List String :=
  ["console", "shell-session"]

/-- The fenced code blocks that do not stand inside another one, in text order. -/
def fencedBlocks (root : SyntaxNode) : List SyntaxNode :=
  (SyntaxNode.visit (·.kind ≠ "fenced_code_block") [root]).filter (·.kind = "fenced_code_block")

/-- The tag of a block: the first word of its info string, in lower case and without braces. -/
def tagOf? (info : List Char) : Option String := do
  let word ← (Text.words info).head?
  let lower := word.map Char.toLower
  pure (.ofList (Text.dropTrailing (· = '\x7d') (lower.dropWhile (· = '\x7b'))))

def stripPrompts (text : List Char) : List Char :=
  Text.unlines ((Text.lines text).map fun line => (Text.afterPrefix? ['$', ' '] line).getD line)

def childOfKind? (block : SyntaxNode) (kind : String) : Option SyntaxNode :=
  block.namedChildren.find? (·.kind = kind)

/-- The script in a block that is tagged with a shell, and the row on which it starts. -/
def shellContent? (source : List Char) (block : SyntaxNode) : Option (List Char × Nat) := do
  let tag ← tagOf? (← (← childOfKind? block "info_string").text? source)
  if !shellTags.contains tag then none
  let body ← childOfKind? block "code_fence_content"
  let text ← body.text? source
  pure (if consoleTags.contains tag then stripPrompts text else text, body.startRow source)

def cappedSum (left right : UInt32) : UInt32 :=
  Source.cappedCount (left.toNat + right.toNat)

/-- The symbols of a block, moved down to where the block stands. -/
def blockSymbols (source : Source) (parseShell : List Char → SyntaxNode) (block : SyntaxNode) :
    List Symbol :=
  match shellContent? source.text block with
  | none => []
  | some (content, row) =>
      (Shell.symbols ⟨source.file, content⟩ (parseShell content)).map fun symbol =>
        { symbol with line := cappedSum symbol.line (Source.cappedCount row) }

def symbols (source : Source) (parseShell : List Char → SyntaxNode) (root : SyntaxNode) :
    List Symbol :=
  (fencedBlocks root).flatMap (blockSymbols source parseShell)

end SourceBaseline.Markdown
