import SourceBaseline.Path
import SourceBaseline.Symbol
import SourceBaseline.Text.Letter

/-!
# Visibility

A convention decides from a name whether a declaration belongs to a public interface. A policy
chooses the convention by the extension of the file, without regard to ASCII case.
-/

set_option autoImplicit false

namespace SourceBaseline

/-- How names show what is public: by a capital first letter, always, or unless the name begins
with an underscore or a number sign. -/
inductive Convention where
  | capitalized
  | everything
  | underscore
  deriving DecidableEq, Inhabited

namespace Convention

def all : List Convention := [.capitalized, .everything, .underscore]

def text : Convention → String
  | .capitalized => "capitalized"
  | .everything => "public"
  | .underscore => "underscore"

def ofText? (text : String) : Option Convention :=
  all.find? (·.text = text)

def decode? (json : Json) : Option Convention :=
  json.variant?.bind ofText?

def isPublic (convention : Convention) (name : String) : Bool :=
  match convention, name.toList.head? with
  | .everything, _ => true
  | .capitalized, first => (first.map Text.isUppercase).getD false
  | .underscore, first => first ≠ some '_' && first ≠ some '#'

end Convention

/-- An extension without the dots in front of it and in lower case. -/
def extensionKey (extension : String) : String :=
  Text.asciiLower (.ofList (extension.toList.dropWhile (· = '.')))

/-- The extension by which a file is looked up. -/
def lookupExtension? (file : Path) : Option String :=
  file.extension?.map Text.asciiLower

structure VisibilityPolicy where
  byExtension : SortedMap String Convention
  fallback : Convention
  deriving DecidableEq

namespace VisibilityPolicy

def underscoreExtensions : List String :=
  ["bash", "cjs", "cts", "js", "jsx", "markdown", "md", "mjs", "mts", "py", "pyi", "rs", "sh",
    "ts", "tsx"]

def standard : VisibilityPolicy :=
  ⟨.ofList (underscoreExtensions.map (·, .underscore) ++ [("go", .capitalized)]), .everything⟩

/-- The standard policy with overrides, in key order, on top. -/
def withOverrides (overrides : SortedMap String Convention) : VisibilityPolicy :=
  { standard with
    byExtension := overrides.entries.foldl
      (fun table entry => table.insert (extensionKey entry.1) entry.2) standard.byExtension }

def conventionFor (policy : VisibilityPolicy) (file : String) : Convention :=
  ((lookupExtension? ⟨file⟩).bind policy.byExtension.find?).getD policy.fallback

def isPublic (policy : VisibilityPolicy) (symbol : Symbol) : Bool :=
  (policy.conventionFor symbol.file).isPublic symbol.name

end VisibilityPolicy

end SourceBaseline
