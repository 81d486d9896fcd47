import SourceBaseline.Language.Go
import SourceBaseline.Language.Markdown
import SourceBaseline.Language.Python
import SourceBaseline.Language.Rust
import SourceBaseline.Language.TypeScript

/-!
# Languages

The languages whose declarations are found. Syntax trees come from outside: a grammar gives one for
every text, with the faults of the text as nodes of the tree.
-/

set_option autoImplicit false

namespace SourceBaseline

/-- The languages whose declarations are found. `tsx` is TypeScript with markup in it. -/
inductive Language where
  | go
  | markdown
  | python
  | rust
  | shell
  | tsx
  | typescript
  deriving DecidableEq, Inhabited

/-- The syntax tree of every text in every language. -/
abbrev Grammar := Language → List Char → SyntaxNode

namespace Language

def name : Language → String
  | .go => "go"
  | .markdown => "markdown"
  | .python => "python"
  | .rust => "rust"
  | .shell => "shell"
  | .tsx => "typescript"
  | .typescript => "typescript"

def symbols (language : Language) (grammar : Grammar) (source : Source) : List Symbol :=
  let root := grammar language source.text
  match language with
  | .go => Go.symbols source root
  | .markdown => Markdown.symbols source (grammar .shell) root
  | .python => Python.symbols source root
  | .rust => Rust.symbols source root
  | .shell => Shell.symbols source root
  | .tsx => TypeScript.symbols source root
  | .typescript => TypeScript.symbols source root

end Language

end SourceBaseline
