import SourceBaseline.Boundary
import SourceBaseline.Deadline
import SourceBaseline.Exclude

/-!
# Walking the tree

The walk visits the entries below the root in name order, each directory before what it holds. It
does not enter excluded directories, passes every other entry through the boundary, and stops at
the first file past the ceiling.
-/

set_option autoImplicit false

namespace SourceBaseline

/-- A file that belongs to the project: its path from the root and where its content is. -/
structure TrackedFile where
  relative : String
  absolute : Location
  deriving DecidableEq, Inhabited

structure Walk where
  boundary : Boundary
  exclude : Exclude
  ceiling : Nat

namespace Walk

def relativePath (names : List String) : String :=
  "/".intercalate names

/-- The file that an entry stands for, if it is tracked. A link counts if it leads to a file. -/
def tracked? (walk : Walk) (disk : Disk) (names : List String) (entry : Entry) :
    Option TrackedFile :=
  if walk.exclude.isExcluded (relativePath names) then none
  else
    match entry, walk.boundary.validate disk (Location.path (walk.boundary.root ++ names)) with
    | .file _ _, .ok absolute => some ⟨relativePath names, absolute⟩
    | .link _, .ok absolute =>
        if disk.isFile absolute.route then some ⟨relativePath names, absolute⟩ else none
    | _, _ => none

/-- Visit entries in order, after `count` files. A directory that is excluded takes everything
below it out of the list. An error ends the walk. -/
def visit (walk : Walk) (disk : Disk) (deadline : Deadline) (count : Nat) :
    List (List String × Entry) → List (Outcome TrackedFile)
  | [] =>
      match deadline.check with
      | .error error => [.error error]
      | .ok () => []
  | (names, entry) :: rest =>
      match deadline.check with
      | .error error => [.error error]
      | .ok () =>
          if entry = .directory then
            if walk.exclude.isExcluded (relativePath names) then
              visit walk disk deadline count
                (rest.dropWhile fun other => names.isPrefixOf other.1)
            else visit walk disk deadline count rest
          else
            match walk.tracked? disk names entry with
            | none => visit walk disk deadline count rest
            | some file =>
                if walk.ceiling ≤ count then [.error (fileLimitError walk.ceiling)]
                else .ok file :: visit walk disk deadline (count + 1) rest
termination_by entries => entries.length
decreasing_by
  all_goals simp only [List.length_cons]
  all_goals first
    | omega
    | exact Nat.lt_succ_of_le (List.dropWhile_sublist _).length_le

def items (walk : Walk) (disk : Disk) (deadline : Deadline) : List (Outcome TrackedFile) :=
  walk.visit disk deadline 0 (disk.below walk.boundary.root)

def enumerate (walk : Walk) (disk : Disk) (deadline : Deadline) : Outcome (List TrackedFile) :=
  (walk.items disk deadline).mapM id

end Walk

end SourceBaseline
