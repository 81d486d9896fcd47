import SourceBaseline.Disk.Resolution
import SourceBaseline.Error

/-!
# Boundary

A boundary decides whether a path stays inside the project root. It follows links one at a time: a
link inside the root whose target leaves the root refuses the path even if a later link leads back,
and a chain longer than the budget is given up. Once a part of the path is missing, the parts after
it are taken as they are written.
-/

set_option autoImplicit false

namespace SourceBaseline

/-- The project root and how many links may be followed on the way to one path. -/
structure Boundary where
  root : Location
  linkBudget : Nat
  named : ∀ name ∈ root, IsName name
  deriving DecidableEq

def defaultLinkBudget : Nat := 40

namespace Boundary

def open? (disk : Disk) (root : Path) (linkBudget : Nat) : Outcome Boundary :=
  match found : disk.canonical root with
  | .ok location => pure ⟨location, linkBudget, Disk.isName_of_canonical found⟩
  | .error fault => .error (.disk fault)

/-- A path for display: relative to the root inside it, and by its last name alone outside. -/
def redact (boundary : Boundary) (path : Path) : String :=
  match path.partsBelow? boundary.root with
  | some parts => Path.joinParts parts
  | none =>
      if path.isAbsolute then "<outside>/" ++ path.fileName?.getD ""
      else Path.joinParts path.components

def relative? (boundary : Boundary) (path : Path) : Option String :=
  (path.partsBelow? boundary.root).map Path.joinParts

/-- Follow parts from a place. `missing` says whether a part before them does not exist. `onLink`
is told where a link stands, its name and target, and the parts that are left. -/
def proceed (disk : Disk)
    (onLink : Location → String → Path → List Component → Outcome Location) :
    Bool → Location → List Component → Outcome Location
  | _, here, [] => .ok here
  | missing, here, .up :: rest => proceed disk onLink missing here.dropLast rest
  | true, here, .name name :: rest => proceed disk onLink true (here ++ [name]) rest
  | false, here, .name name :: rest =>
      match disk.inspectLink (Location.route (here ++ [name])) with
      | .error .notFound => proceed disk onLink true (here ++ [name]) rest
      | .error fault => .error (.disk fault)
      | .ok (.link target) => onLink here name target rest
      | .ok _ => proceed disk onLink false (here ++ [name]) rest
  | missing, here, _ :: rest => proceed disk onLink missing here rest

/-- Where a link that stands in `here` leads before anything is looked up on the disk. -/
def linkTarget (here : Location) (target : Path) : Location :=
  Path.follow (if target.isAbsolute then [] else here) target.components

/-- Follow parts through at most that many links. `shown` is the path in errors. -/
def resolve (boundary : Boundary) (disk : Disk) (shown : String) :
    Nat → Location → List Component → Outcome Location
  | 0, here, parts =>
      proceed disk (fun _ _ _ _ => .error (.tooManyLinks boundary.linkBudget shown))
        false here parts
  | links + 1, here, parts =>
      proceed disk
        (fun here name target rest =>
          if Location.isWithin (here ++ [name]) boundary.root ∧
              !(linkTarget here target).isWithin boundary.root then
            .error (.outsideRoot shown)
          else
            resolve boundary disk shown links (if target.isAbsolute then [] else here)
              (target.components ++ rest))
        false here parts

def absolute (boundary : Boundary) (path : Path) : Path :=
  boundary.root.path.join path

/-- The place that a path leads to, if it and every link on the way stay inside the root. -/
def validate (boundary : Boundary) (disk : Disk) (path : Path) : Outcome Location := do
  let shown := boundary.redact (boundary.absolute path)
  let parts := path.components
  let start := if path.isAbsolute then parts else boundary.root.map .name ++ parts
  let place ← boundary.resolve disk shown boundary.linkBudget [] start
  if place.isWithin boundary.root then pure place else .error (.outsideRoot shown)

end Boundary

end SourceBaseline
