import SourceBaseline.Text.Blank

/-!
# Paths and locations

A path is text as somebody wrote it: it may be relative, repeat separators and hold `.` and
`..`. A location is the list of names that leads from the top of the file system to a place.
`components` is the reading of a path that ignores repeated separators and inner `.`, and
`normalize` collapses `..` without looking at the disk.
-/

set_option autoImplicit false

namespace SourceBaseline

/-- A path as it is written, with `/` between its parts. -/
structure Path where
  text : String
  deriving DecidableEq, Inhabited

/-- A part of a path. `here` is a leading `.`, and `up` is `..`. -/
inductive Component where
  | root
  | here
  | up
  | name (text : String)
  deriving DecidableEq, Inhabited

def Component.text : Component → String
  | .root => "/"
  | .here => "."
  | .up => ".."
  | .name text => text

/-- A text that can stand as a name in a directory. -/
structure IsName (name : String) : Prop where
  nonempty : name ≠ ""
  notHere : name ≠ "."
  notUp : name ≠ ".."
  undivided : '/' ∉ name.toList

instance : DecidablePred IsName := fun name =>
  decidable_of_iff (name ≠ "" ∧ name ≠ "." ∧ name ≠ ".." ∧ '/' ∉ name.toList)
    ⟨fun ⟨nonempty, notHere, notUp, undivided⟩ => ⟨nonempty, notHere, notUp, undivided⟩,
      fun isName => ⟨isName.nonempty, isName.notHere, isName.notUp, isName.undivided⟩⟩

/-- The names that lead from the top of the file system to a place. -/
abbrev Location := List String

namespace Location

def path (location : Location) : Path :=
  ⟨"/" ++ "/".intercalate location⟩

/-- Whether `location` is `top` or lies below it. -/
def isWithin (location top : Location) : Bool :=
  top.isPrefixOf location

def below? (top location : Location) : Option (List String) :=
  if location.isWithin top then some (location.drop top.length) else none

theorem below?_append (top rest : Location) : below? top (top ++ rest) = some rest := by
  simp [below?, isWithin]

theorem below?_eq_some_iff {top location rest : Location} :
    below? top location = some rest ↔ location = top ++ rest := by
  constructor
  · intro found
    rw [below?] at found
    split at found
    next within =>
      obtain ⟨more, rfl⟩ := List.isPrefixOf_iff_prefix.1 within
      cases found
      simp
    next => cases found
  · rintro rfl
    exact below?_append top rest

theorem below?_eq_none_iff {top location : Location} :
    below? top location = none ↔ location.isWithin top = false := by
  rw [below?]
  split <;> simp_all

theorem prefix_dropLast {top location : Location} (within : top <+: location)
    (proper : top ≠ location) : top <+: location.dropLast := by
  rcases List.eq_nil_or_concat location with empty | ⟨parent, name, split⟩
  · rw [empty, List.prefix_nil] at within
    exact absurd (within.trans empty.symm) proper
  · rw [split, List.concat_eq_append] at within proper ⊢
    rw [List.dropLast_concat]
    rcases List.prefix_concat_iff.1 within with same | above
    · exact absurd same proper
    · exact above

theorem below?_cons (name first : String) (top rest : Location) :
    below? (name :: top) (first :: rest) = if name = first then below? top rest else none := by
  by_cases same : name = first <;> simp [below?, isWithin, same]

end Location

namespace Path

def isAbsolute (path : Path) : Bool :=
  path.text.toList.head? = some '/'

def endsInSeparator (path : Path) : Bool :=
  path.text.toList.getLast? = some '/'

/-- The texts between the separators, empty ones included. -/
def pieces (path : Path) : List String :=
  (Text.pieces '/' path.text.toList).map .ofList

def isVoid (piece : String) : Bool :=
  piece = "" || piece = "."

/-- The leading `.` of a relative path, and the pieces after it or after the leading separator. -/
def leadAndBody (path : Path) : Option String × List String :=
  if path.isAbsolute then (none, path.pieces.drop 1)
  else
    match path.pieces with
    | "." :: rest => (some ".", rest)
    | body => (none, body)

def componentOf? (piece : String) : Option Component :=
  if isVoid piece then none else if piece = ".." then some .up else some (.name piece)

/-- The parts of the path: repeated separators, inner `.` and a trailing separator are dropped. -/
def components (path : Path) : List Component :=
  let (lead, body) := path.leadAndBody
  (if path.isAbsolute then [.root] else if lead.isSome then [.here] else []) ++
    body.filterMap componentOf?

/-- The name that the path ends in, unless it ends in `..` or names nothing. -/
def fileName? (path : Path) : Option String :=
  match path.components.getLast? with
  | some (.name text) => some text
  | _ => none

/-- What follows the last dot of a name, unless that dot is its first character. -/
def extensionOfName? (name : String) : Option String :=
  match Text.splitOnce? '.' name.toList.reverse with
  | some (after, before) => if before = [] then none else some (.ofList after.reverse)
  | none => none

def extension? (path : Path) : Option String :=
  path.fileName?.bind extensionOfName?

/-- Append `other`; an absolute `other` replaces the path. -/
def join (path other : Path) : Path :=
  if other.isAbsolute then other
  else if path.text = "" ∨ path.endsInSeparator then ⟨path.text ++ other.text⟩
  else ⟨path.text ++ "/" ++ other.text⟩

def dropVoid (pieces : List String) : List String :=
  (pieces.reverse.dropWhile isVoid).reverse

/-- The path without its last part; the top and the empty path have none. -/
def parent? (path : Path) : Option Path :=
  let (lead, body) := path.leadAndBody
  let kept := dropVoid body
  if kept = [] then
    if lead.isSome then some ⟨""⟩ else none
  else
    let rest := "/".intercalate (lead.toList ++ dropVoid kept.dropLast)
    some ⟨if path.isAbsolute then "/" ++ rest else rest⟩

/-- The path with `name` in place of its file name, or below it if it has none. -/
def withFileName (path : Path) (name : String) : Path :=
  if path.fileName?.isSome then (path.parent?.getD ⟨""⟩).join ⟨name⟩ else path.join ⟨name⟩

def ancestorsWithin : Nat → Path → List Path
  | 0, path => [path]
  | count + 1, path =>
      path :: (path.parent?.map (ancestorsWithin count)).getD []

def ancestors (path : Path) : List Path :=
  ancestorsWithin path.text.length path

def followBackwards (names : List String) : List Component → List String
  | [] => names
  | .up :: rest => followBackwards names.tail rest
  | .name text :: rest => followBackwards (text :: names) rest
  | .root :: rest | .here :: rest => followBackwards names rest

/-- Follow parts from a place without looking at the disk. -/
def follow (names : List String) (parts : List Component) : List String :=
  (followBackwards names.reverse parts).reverse

theorem follow_nil (names : List String) : follow names [] = names := by
  simp [follow, followBackwards]

theorem follow_up (names : List String) (rest : List Component) :
    follow names (.up :: rest) = follow names.dropLast rest := by
  simp [follow, followBackwards]

theorem follow_name (names : List String) (text : String) (rest : List Component) :
    follow names (.name text :: rest) = follow (names ++ [text]) rest := by
  simp [follow, followBackwards]

theorem follow_root (names : List String) (rest : List Component) :
    follow names (.root :: rest) = follow names rest := rfl

theorem follow_here (names : List String) (rest : List Component) :
    follow names (.here :: rest) = follow names rest := rfl

/-- The path without `.` and `..`, where `..` at the start is dropped. -/
def normalize (path : Path) : Path :=
  let rest := "/".intercalate (follow [] path.components)
  ⟨if path.isAbsolute then "/" ++ rest else rest⟩

/-- The names by which a disk follows the path: `.` is kept, and a separator at the end asks for a
directory just as a `.` there does. -/
def walkNames (path : Path) : List String :=
  let pieces := path.pieces
  pieces.filter (· ≠ "") ++ if pieces.getLast? = some "" then ["."] else []

theorem undivided_of_mem_pieces {path : Path} {piece : String} (member : piece ∈ path.pieces) :
    '/' ∉ piece.toList := by
  obtain ⟨chars, inside, rfl⟩ := List.mem_map.1 member
  simpa using Text.not_mem_of_mem_pieces inside

theorem mem_pieces_of_mem_body {path : Path} {piece : String}
    (member : piece ∈ path.leadAndBody.2) : piece ∈ path.pieces := by
  rw [leadAndBody] at member
  split at member
  next => exact List.mem_of_mem_drop member
  next =>
    split at member
    next rest pieces =>
      rw [pieces]
      exact List.mem_cons_of_mem _ member
    next => exact member

theorem isName_of_componentOf? {piece name : String} (undivided : '/' ∉ piece.toList)
    (part : componentOf? piece = some (.name name)) : IsName name := by
  rw [componentOf?] at part
  split at part
  next => cases part
  next solid =>
    split at part
    next => cases part
    next notUp =>
      cases part
      have plain : piece ≠ "" ∧ piece ≠ "." := by simpa [isVoid] using solid
      exact ⟨plain.1, plain.2, notUp, undivided⟩

theorem isName_of_mem_components {path : Path} {name : String}
    (member : .name name ∈ path.components) : IsName name := by
  rw [components] at member
  rcases List.mem_append.1 member with lead | body
  · split at lead
    next => simp at lead
    next => split at lead <;> simp at lead
  · obtain ⟨piece, inside, part⟩ := List.mem_filterMap.1 body
    exact isName_of_componentOf? (undivided_of_mem_pieces (mem_pieces_of_mem_body inside)) part

theorem undivided_of_mem_walkNames {path : Path} {name : String}
    (member : name ∈ path.walkNames) : name ≠ "" ∧ '/' ∉ name.toList := by
  rw [walkNames] at member
  rcases List.mem_append.1 member with piece | last
  · obtain ⟨inside, nonempty⟩ := List.mem_filter.1 piece
    exact ⟨by simpa using nonempty, undivided_of_mem_pieces inside⟩
  · split at last
    next =>
      have here : name = "." := by simpa using last
      subst here
      decide
    next => simp at last

/-- What is left of the parts after those of `top`, if they begin with them. -/
def partsBelow? (path : Path) (top : Location) : Option (List Component) :=
  let start := Component.root :: top.map .name
  if start.isPrefixOf path.components then some (path.components.drop start.length) else none

def joinParts (parts : List Component) : String :=
  "/".intercalate (parts.map Component.text)

end Path

/-- A way to a place on a disk: the path that is handed over and the names it is followed by. -/
structure Route where
  path : Path
  names : List String
  deriving DecidableEq, Inhabited

def Path.route (path : Path) : Route := ⟨path, path.walkNames⟩

/-- The names without the request for a directory that a separator at the end stands for. -/
def Route.bareNames (route : Route) : List String :=
  if route.path.endsInSeparator ∧ route.names.getLast? = some "." then route.names.dropLast
  else route.names

def Location.route (location : Location) : Route := ⟨location.path, location⟩

/-- The location and those above it, the longest first. -/
def Location.ancestors : Location → List Location
  | [] => [[]]
  | name :: rest => (ancestors rest).map (name :: ·) ++ [[]]

end SourceBaseline
