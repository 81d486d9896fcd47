import SourceBaseline.Language
import SourceBaseline.Text.Quoted
import SourceBaseline.Visibility

/-!
# Registries

A registry chooses the language of a file by its extension, without regard to ASCII case. A later
registration of an extension replaces an earlier one. Whatever else can find symbols may be registered
in place of a language.
-/

set_option autoImplicit false

namespace SourceBaseline

/-- The language for each extension, or what is registered in its place. -/
structure Registry (α : Type := Language) where
  byExtension : SortedMap String α
  deriving DecidableEq, Inhabited

namespace Registry

variable {α : Type}

def empty : Registry α := ⟨.empty⟩

def register (registry : Registry α) (extensions : List String) (language : α) : Registry α :=
  ⟨extensions.foldl (fun table extension => table.insert (extensionKey extension) language)
    registry.byExtension⟩

def standard : Registry :=
  empty
    |>.register ["go"] .go
    |>.register ["md", "markdown"] .markdown
    |>.register ["py", "pyi"] .python
    |>.register ["rs"] .rust
    |>.register ["sh", "bash"] .shell
    |>.register ["ts", "mts", "cts", "js", "mjs", "cjs"] .typescript
    |>.register ["tsx", "jsx"] .tsx

def extensions (registry : Registry α) : List String :=
  registry.byExtension.keys

def languageOf? (registry : Registry α) (file : String) : Option α :=
  (lookupExtension? ⟨file⟩).bind registry.byExtension.find?

def description (registry : Registry) : String :=
  let entry := fun (pair : String × Language) =>
    Text.quoted pair.1 ++ ": " ++ Text.quoted pair.2.name
  "LanguageRegistry \x7b adapters: \x7b" ++
    ", ".intercalate (registry.byExtension.entries.map entry) ++ "\x7d \x7d"

end Registry

end SourceBaseline
