import SourceBaseline.Path

/-!
# Targets

A target is where a document is to stand. It is named by a path as somebody wrote it, or by the
location to which a path was found to lead. Its lock and the temporary files for it stand beside it.
-/

set_option autoImplicit false

namespace SourceBaseline

/-- Where a document is to stand. -/
inductive Target where
  | written (path : Path)
  | located (place : Location)
  deriving DecidableEq, Inhabited

namespace Target

def route : Target → Route
  | written path => path.route
  | located place => Location.route place

def path (target : Target) : Path :=
  target.route.path

def name : Target → String
  | written path => path.fileName?.getD ""
  | located place => place.getLast?.getD ""

def renamed (target : Target) (name : String) : Target :=
  match target with
  | written path => written (path.withFileName name)
  | located place => located (place.dropLast ++ [name])

def beside (target : Target) (name : String) : Target :=
  match target with
  | written path => written ((path.parent?.getD ⟨""⟩).join ⟨name⟩)
  | located place => located (place.dropLast ++ [name])

/-- The directory of the target and those above it, the nearest first. -/
def directories : Target → List Route
  | written path => ((path.parent?.map Path.ancestors).getD []).map Path.route
  | located place => (Location.ancestors place.dropLast).map Location.route

/-- The file that is there while somebody holds the lock of the target. -/
def lock (target : Target) : Target :=
  target.renamed (target.name ++ ".lock")

end Target

end SourceBaseline
