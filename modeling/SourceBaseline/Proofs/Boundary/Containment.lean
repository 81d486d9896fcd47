import SourceBaseline.Proofs.Boundary.Run
import SourceBaseline.Proofs.Disk.Change

/-!
# Containment

A place that the boundary answers lies inside the root. It lies behind no link either, unless the
path comes to a link after a part that is missing: from there on links are not looked for, and `..`
leads back to where they stand.
-/

set_option autoImplicit false

namespace SourceBaseline.Boundary

variable {boundary : Boundary} {disk : Disk} {path : Path} {place : Location}

/-- A part on the way is missing, and what is left of the path, taken as it is written, leads above
that part again and then to or through a link. -/
def ReturnsToLink (boundary : Boundary) (disk : Disk) (path : Path) : Prop :=
  ∃ links here name rest,
    links ≤ boundary.linkBudget ∧
    boundary.Reaches disk (boundary.start path) links ⟨false, here, .name name :: rest⟩ ∧
    disk.inspectLink (Location.route (here ++ [name])) = .error .notFound ∧
    ¬ (here ++ [name]) <+: Path.follow (here ++ [name]) rest ∧
    ¬ disk.LinkFree (Path.follow (here ++ [name]) rest)

theorem Reaches.written {first last : Position} {links : Nat}
    (reached : boundary.Reaches disk first links last) (missing : first.missing = true)
    (ended : last.parts = []) :
    last.missing = true ∧ last.here = Path.follow first.here first.parts := by
  induction reached with
  | @start position =>
      rw [ended, Path.follow_nil]
      exact ⟨missing, rfl⟩
  | step moved _ ih =>
      cases moved with
      | root => exact ih missing ended
      | stay => exact ih missing ended
      | up =>
          rw [Path.follow_up]
          exact ih missing ended
      | written =>
          rw [Path.follow_name]
          exact ih missing ended
      | absent _ => cases missing
      | enter _ _ => cases missing
  | hop hopped _ _ =>
      cases hopped
      cases missing

/-- A run that ends after a missing part has passed the first of them. -/
theorem Reaches.passes_gap {first last : Position} {links : Nat}
    (reached : boundary.Reaches disk first links last) (present : first.missing = false)
    (missing : last.missing = true) (ended : last.parts = []) :
    ∃ before here name rest,
      before ≤ links ∧
      boundary.Reaches disk first before ⟨false, here, .name name :: rest⟩ ∧
      disk.inspectLink (Location.route (here ++ [name])) = .error .notFound ∧
      last.here = Path.follow (here ++ [name]) rest := by
  -- Before the first part that is missing, a step only puts itself in front of the rest of the run.
  induction reached with
  | start =>
      rw [present] at missing
      cases missing
  | @step first second last links moved later ih =>
      have onward (still : second.missing = false) :
          ∃ before here name rest, before ≤ links ∧
            boundary.Reaches disk first before ⟨false, here, .name name :: rest⟩ ∧
            disk.inspectLink (Location.route (here ++ [name])) = .error .notFound ∧
            last.here = Path.follow (here ++ [name]) rest := by
        obtain ⟨before, here, name, rest, fewer, passed, gap⟩ := ih still missing ended
        exact ⟨before, here, name, rest, fewer, .step moved passed, gap⟩
      cases moved with
      | root => exact onward present
      | stay => exact onward present
      | up => exact onward present
      | written => cases present
      | @absent here name rest absent =>
          exact ⟨0, here, name, rest, Nat.zero_le _, .start, absent, (later.written rfl ended).2⟩
      | enter => exact onward rfl
  | hop hopped _ ih =>
      have after : ∀ {first second : Position}, Hop boundary disk first second →
          second.missing = false := by
        intro first second hopped
        cases hopped
        rfl
      obtain ⟨before, here, name, rest, fewer, gap⟩ := ih (after hopped) missing ended
      exact ⟨before + 1, here, name, rest, Nat.succ_le_succ fewer, .hop hopped gap.1, gap.2⟩

/-- Where the boundary answers, the place lies behind no link just if the path does not come to a
link after a missing part. -/
theorem linkFree_iff_of_validate (valid : boundary.validate disk path = .ok place) :
    disk.LinkFree place ↔ ¬ boundary.ReturnsToLink disk path := by
  obtain ⟨_, links, missing, bounded, reached⟩ := reaches_of_validate valid
  constructor
  · intro free returns
    obtain ⟨before, here, name, rest, _, passed, absent, _, behind⟩ := returns
    obtain ⟨more, ended⟩ := passed.continues reached
    cases ended with
    | step moved ended =>
        cases moved.deterministic (.absent absent)
        exact behind ((ended.written rfl rfl).2 ▸ free)
    | hop hopped _ => exact ((Step.absent absent).not_hop hopped).elim
  · intro stays
    cases missing with
    | false => exact (reached.sound (sound_start path)).free rfl
    | true =>
        obtain ⟨before, here, name, rest, fewer, passed, absent, same⟩ :=
          reached.passes_gap rfl rfl rfl
        have sound := passed.sound (sound_start path)
        by_cases within : (here ++ [name]) <+: place
        · exact sound.linkFree_below absent within
        · apply Classical.byContradiction
          intro behind
          apply stays
          refine ⟨before, here, name, rest, Nat.le_trans fewer bounded, passed, absent, ?_, ?_⟩
          · exact same ▸ within
          · exact same ▸ behind

/-- The answer of the boundary lies inside the root. Just when the path does not come back to a link
after a missing part, no link stands there or on the way there; a read then ends at the place
itself, and a write changes nothing outside the root. -/
theorem validate_contained (valid : boundary.validate disk path = .ok place) :
    place.isWithin boundary.root = true ∧
      (disk.LinkFree place ↔ ¬ boundary.ReturnsToLink disk path) ∧
      (¬ boundary.ReturnsToLink disk path →
        (∀ found, disk.locate (Location.route place) = .ok found → found = place) ∧
        ∀ content after, disk.write (Location.route place) content = .ok after →
          ∀ location, location.isWithin boundary.root = false →
            after.find? location = disk.find? location) := by
  have within := (reaches_of_validate valid).1
  have named := isName_of_validate valid
  have exactly := linkFree_iff_of_validate valid
  refine ⟨within, exactly, ?_⟩
  intro stays
  have free := exactly.2 stays
  refine ⟨?_, ?_⟩
  · intro found located
    exact Disk.eq_of_locate named free located
  · intro content after written location outside
    rw [Disk.becomes_of_write named free written location, if_neg]
    intro same
    rw [same, within] at outside
    cases outside

/-- A project whose only entry is a link to a directory outside. -/
def leavingDisk : Disk :=
  ((Disk.blank.put [] "outside" .directory).put [] "project" .directory).put ["project"] "link"
    (.link ⟨"/outside"⟩)

/-- The boundary around that project. -/
def projectBoundary : Boundary := ⟨["project"], defaultLinkBudget, by decide⟩

theorem validate_contained_of_missing :
    projectBoundary.validate leavingDisk ⟨"nope/new"⟩ = .ok ["project", "nope", "new"] ∧
      Location.isWithin ["project", "nope", "new"] projectBoundary.root = true ∧
      ¬ projectBoundary.ReturnsToLink leavingDisk ⟨"nope/new"⟩ ∧
      ∀ found, leavingDisk.locate (Location.route ["project", "nope", "new"]) = .ok found →
        found = ["project", "nope", "new"] := by
  have valid : projectBoundary.validate leavingDisk ⟨"nope/new"⟩ =
      .ok ["project", "nope", "new"] := by decide +kernel
  have free : leavingDisk.LinkFree ["project", "nope", "new"] := by decide +kernel
  obtain ⟨within, exactly, confined⟩ := validate_contained valid
  exact ⟨valid, within, exactly.1 free, (confined (exactly.1 free)).1⟩

/-- After a missing part a link that leaves the root is not noticed. -/
theorem validate_answers_link :
    projectBoundary.validate leavingDisk ⟨"nope/../link"⟩ = .ok ["project", "link"] ∧
      leavingDisk.find? ["project", "link"] = some (.link ⟨"/outside"⟩) ∧
      leavingDisk.locate (Location.route ["project", "link"]) = .ok ["outside"] ∧
      Location.isWithin ["outside"] projectBoundary.root = false := by
  refine ⟨?_, ?_, ?_, ?_⟩
  · decide +kernel
  · decide +kernel
  · decide +kernel
  · decide

end SourceBaseline.Boundary
