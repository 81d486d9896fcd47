import SourceBaseline.Baseline.Checksum
import SourceBaseline.Git
import SourceBaseline.Sha256
import SourceBaseline.Text.Letter
import SourceBaseline.Walk

/-!
# Snapshots

A snapshot is a checksum baseline of the tree as it stands: the hash of every tracked file, the
language of most files, where the documentation is and what the read-me says first.
-/

set_option autoImplicit false

namespace SourceBaseline

/-- The hash of a file; a file that cannot be read has the empty hash. -/
def hashFile (disk : Disk) (route : Route) : String :=
  match disk.read route with
  | .ok content => Sha256.hex content
  | .error _ => ""

def languageExtensions : List (String × List String) :=
  [("c", ["c", "h"]),
   ("cpp", ["cc", "cpp", "cxx", "hpp"]),
   ("csharp", ["cs"]),
   ("go", ["go"]),
   ("java", ["java"]),
   ("javascript", ["js", "jsx", "mjs", "cjs"]),
   ("kotlin", ["kt", "kts"]),
   ("php", ["php"]),
   ("python", ["py", "pyi"]),
   ("ruby", ["rb"]),
   ("rust", ["rs"]),
   ("shell", ["sh", "bash"]),
   ("swift", ["swift"]),
   ("typescript", ["ts", "tsx"])]

def languageForExtension? (extension : String) : Option String :=
  (languageExtensions.find? (·.2.contains extension)).map Prod.fst

def languageTotals (extensions : SortedMap String Nat) : SortedMap String Nat :=
  extensions.entries.foldl
    (fun totals (extension, count) =>
      match languageForExtension? extension with
      | none => totals
      | some language => totals.insert language ((totals.find? language).getD 0 + count))
    .empty

def firstGreatest? : List (String × Nat) → Option (String × Nat)
  | [] => none
  | entry :: rest =>
      match firstGreatest? rest with
      | none => some entry
      | some other => if entry.2 < other.2 then some other else some entry

/-- The programming language of most files; the alphabetically first one of several. -/
def detectLanguage (extensions : SortedMap String Nat) : String :=
  ((firstGreatest? (languageTotals extensions).entries).map Prod.fst).getD "unknown"

/-- The number of files for each extension, without regard to ASCII case. -/
def countExtensions (files : List TrackedFile) : SortedMap String Nat :=
  files.foldl
    (fun counts file =>
      match (Path.mk file.relative).extension?.map Text.asciiLower with
      | none => counts
      | some extension => counts.insert extension ((counts.find? extension).getD 0 + 1))
    .empty

/-- The directories that can hold documentation, in order of preference. -/
def documentationNames : List String :=
  ["docs", "doc", "documentation"]

def documentation? (disk : Disk) (boundary : Boundary) : Option String :=
  documentationNames.find? fun name =>
    match boundary.validate disk ⟨name⟩ with
    | .ok place => disk.isDirectory (Location.route place)
    | .error _ => false

def readMeNames : List String :=
  ["README.md", "README.rst", "README.txt", "README", "readme.md"]

/-- How lines begin that are markup and not prose. -/
def markupBeginnings : List String :=
  ["#", "[!", "<", "---", "===", "```"]

def descriptionLimit : Nat := 200

def isProse (line : List Char) : Bool :=
  line ≠ [] && !markupBeginnings.any (Text.startsWith line ·)

def trimBackwards (line : List Char) : List Char :=
  (line.dropWhile Text.isBlank).reverse.dropWhile Text.isBlank

/-- The first line of prose without the blanks at its ends, or nothing. `line` holds what has been
read of the current line, the last character first. -/
def firstProseFrom (line : List Char) : List Char → List Char
  | [] =>
      let trimmed := trimBackwards line
      if isProse trimmed then trimmed else []
  | char :: rest =>
      if char = '\n' then
        let trimmed := trimBackwards line
        if isProse trimmed then trimmed else firstProseFrom [] rest
      else firstProseFrom (char :: line) rest

def firstProse (text : List Char) : List Char :=
  firstProseFrom [] text

def readInside? (disk : Disk) (boundary : Boundary) (name : String) : Option String :=
  match boundary.validate disk ⟨name⟩ with
  | .ok place => (disk.readText (Location.route place)).toOption
  | .error _ => none

/-- The first line of prose in the first read-me that can be read. -/
def description (disk : Disk) (boundary : Boundary) : String :=
  match readMeNames.findSome? (readInside? disk boundary) with
  | some text => .ofList ((firstProse text.toList).take descriptionLimit)
  | none => ""

def hashFiles (disk : Disk) (files : List TrackedFile) : SortedMap String String :=
  .ofList (files.map fun file => (file.relative, hashFile disk file.absolute.route))

/-- A checksum baseline of the tree, and the deadline with the time that git took. -/
def snapshot (walk : Walk) (disk : Disk) (git : Git) (deadline : Deadline) :
    Outcome (ChecksumBaseline × Deadline) := do
  let files ← walk.enumerate disk deadline
  let hashes := hashFiles disk files
  let docsPath := documentation? disk walk.boundary
  let (gitMetadata, deadline) := git.metadata? deadline
  pure ({
    createdAt := ""
    description := description disk walk.boundary
    detectedLanguage := detectLanguage (countExtensions files)
    docsExist := docsPath.isSome
    docsPath
    fileCount := hashes.size
    files := hashes
    repoName := walk.boundary.root.getLast?.getD ""
    schemaVersion
    timestamp := ""
    gitMetadata }, deadline)

end SourceBaseline
