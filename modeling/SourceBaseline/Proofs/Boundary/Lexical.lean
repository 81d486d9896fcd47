import SourceBaseline.Proofs.Boundary.Containment
import SourceBaseline.Proofs.Boundary.Obstruction
import SourceBaseline.Proofs.Boundary.Resolution
import SourceBaseline.Proofs.Path.Normal

/-!
# The boundary without links

Where no link is met and nothing fails but what does not exist, the boundary answers the normal form of the
path, which it finds without the disk: parts that exist, parts that do not and `..` after either lead to the
same place.
-/

set_option autoImplicit false

namespace SourceBaseline.Boundary

variable {boundary : Boundary} {disk : Disk} {shown : String} {first second : Position}
  {here : Location} {parts : List Component}

/-- From the position on, every part that is looked up is missing or is found, and then is no link. -/
def MeetsNoLink (boundary : Boundary) (disk : Disk) (position : Position) : Prop :=
  ∀ here name rest, boundary.Reaches disk position 0 ⟨false, here, .name name :: rest⟩ →
    disk.inspectLink (Location.route (here ++ [name])) = .error .notFound ∨
      ∃ entry, disk.inspectLink (Location.route (here ++ [name])) = .ok entry ∧
        ∀ target, entry ≠ .link target

theorem MeetsNoLink.later (plain : boundary.MeetsNoLink disk first) (moved : Step disk first second) :
    boundary.MeetsNoLink disk second :=
  fun here name rest reached => plain here name rest (.step moved reached)

/-- A step looks up nothing but what is missing or is no link. -/
theorem MeetsNoLink.before (plain : boundary.MeetsNoLink disk second) (moved : Step disk first second) :
    boundary.MeetsNoLink disk first := by
  intro here name rest reached
  cases reached with
  | start =>
      cases moved with
      | absent absent => exact .inl absent
      | enter found noLink => exact .inr ⟨_, found, noLink⟩
  | step other reached =>
      cases moved.deterministic other
      exact plain here name rest reached

/-- Parts that meet no link lead to the place that they spell. -/
theorem MeetsNoLink.settles (plain : boundary.MeetsNoLink disk ⟨false, here, parts⟩) :
    boundary.Settles disk shown ⟨false, here, parts⟩ 0
      (boundary.confined shown (Path.follow here parts)) := by
  induction parts generalizing here with
  | nil => exact settles_end
  | cons part rest ih =>
      rw [Path.follow_cons]
      by_cases aside : ∀ name, part ≠ .name name
      · have moved : Step disk ⟨false, here, part :: rest⟩ ⟨false, Path.follow here [part], rest⟩ :=
          step_aside aside
        exact .step moved (ih (plain.later moved))
      · obtain ⟨name, spelled⟩ := Classical.not_forall.1 aside
        obtain rfl := Classical.not_not.1 spelled
        rw [Path.follow_name, Path.follow_nil]
        rcases plain here name rest .start with absent | ⟨entry, found, noLink⟩
        -- After a missing part nothing is looked up any more.
        · exact .step (.absent absent) (settles_missing boundary disk shown _ rest)
        · exact .step (.enter found noLink) (ih (plain.later (.enter found noLink)))

theorem follow_start (boundary : Boundary) (path : Path) :
    Path.follow [] (boundary.start path).parts = Path.follow [] (boundary.absolute path).components := by
  rw [← Path.follow_steps, steps_start, Path.filterMap_walkNames, ← Path.steps_components, Path.follow_steps]

/-- A path past a file and past a part that is missing, with `..` after each of them. -/
def detour : Path := ⟨"deep/kept/.././new/../../left"⟩

theorem meetsNoLink_detour : projectBoundary.MeetsNoLink nestedDisk (projectBoundary.start detour) := by
  have parts : (projectBoundary.start detour).parts =
      [.name "project", .name "deep", .name "kept", .up, .name "new", .up, .up, .name "left"] := by
    decide +kernel
  have begins : projectBoundary.start detour = ⟨false, [], (projectBoundary.start detour).parts⟩ := rfl
  rw [begins, parts]
  have project : nestedDisk.inspectLink (Location.route ["project"]) = .ok .directory := by
    decide +kernel
  have deep : nestedDisk.inspectLink (Location.route ["project", "deep"]) = .ok .directory := by
    decide +kernel
  have kept : nestedDisk.inspectLink (Location.route ["project", "deep", "kept"]) =
      .ok (.file .empty 0) := by
    decide +kernel
  refine .before ?_ (.enter project nofun)
  refine .before ?_ (.enter deep nofun)
  refine .before ?_ (.enter kept nofun)
  refine .before ?_ .up
  refine .before ?_ (.absent (by decide +kernel))
  refine .before ?_ .up
  refine .before ?_ .up
  refine .before ?_ .written
  intro here name rest reached
  cases reached with
  | step moved => cases moved

end SourceBaseline.Boundary
