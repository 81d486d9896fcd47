import Mathlib.Data.List.Infix
import SourceBaseline.Proofs.Boundary.Containment
import SourceBaseline.Proofs.Boundary.Standing
import SourceBaseline.Proofs.Boundary.Threshold
import SourceBaseline.Proofs.Disk.Alike

/-!
# Links after a link inside the root

The boundary holds a link inside the root to a target inside the root, and links outside to nothing.
So a path may go through links outside on its way in, and a chain that leaves the root is refused at
the link that leaves it. Only the text of a target is judged, as a whole: `chain_stays_inward` says
which paths come from a link inside the root to a link outside it all the same.
-/

set_option autoImplicit false

namespace SourceBaseline

theorem Path.follow_concat (names : List String) (parts : List Component) (text : String) :
    follow names (parts ++ [.name text]) = follow names parts ++ [text] := by
  induction parts generalizing names with
  | nil => rw [List.nil_append, follow_name, follow_nil, follow_nil]
  | cons part rest ih =>
      cases part with
      | root => exact ih names
      | here => exact ih names
      | up => rw [List.cons_append, follow_up, follow_up, ih]
      | name name => rw [List.cons_append, follow_name, follow_name, ih]

namespace Boundary

/-- One position leads to another through links that stand in these places, in this order. -/
inductive Follows (boundary : Boundary) (disk : Disk) :
    Position → List Location → Position → Prop where
  | start {position} : Follows boundary disk position [] position
  | step {first second last followed} :
      Step disk first second → Follows boundary disk second followed last →
      Follows boundary disk first followed last
  | hop {here name rest second last followed} :
      Hop boundary disk ⟨false, here, .name name :: rest⟩ second →
      Follows boundary disk second followed last →
      Follows boundary disk ⟨false, here, .name name :: rest⟩ ((here ++ [name]) :: followed) last

/-- After a link inside the root no link outside the root is followed. -/
def Inward (boundary : Boundary) (followed : List Location) : Prop :=
  followed.Pairwise fun earlier later =>
    earlier.isWithin boundary.root = true → later.isWithin boundary.root = true

/-- The validation of a path follows a link inside the root, and what is ahead of it then, the target
of the link and the rest of the path, leads as it is written to a link outside the root before it
leads to any other link. -/
inductive Strays (boundary : Boundary) (disk : Disk) (path : Path) : Prop where
  | intro {links here name rest second taken other ahead target} :
      boundary.Reaches disk (boundary.start path) links ⟨false, here, .name name :: rest⟩ →
      Location.isWithin (here ++ [name]) boundary.root = true →
      Hop boundary disk ⟨false, here, .name name :: rest⟩ second →
      second.parts = taken ++ .name other :: ahead →
      boundary.Reaches disk second 0
        ⟨false, Path.follow second.here taken, .name other :: ahead⟩ →
      disk.inspectLink (Location.route (Path.follow second.here taken ++ [other])) =
        .ok (.link target) →
      Location.isWithin (Path.follow second.here taken ++ [other]) boundary.root = false →
      Strays boundary disk path

/-- Whatever is ahead of the validation of a path after a link inside the root, no part of it leads
as it is written to a place beside the root. -/
def KeepsInward (boundary : Boundary) (disk : Disk) (path : Path) : Prop :=
  ∀ links here name rest second taken,
    boundary.Reaches disk (boundary.start path) links ⟨false, here, .name name :: rest⟩ →
    Location.isWithin (here ++ [name]) boundary.root = true →
    Hop boundary disk ⟨false, here, .name name :: rest⟩ second →
    taken <+: second.parts → Location.Overlaps (Path.follow second.here taken) boundary.root

variable {boundary : Boundary} {disk : Disk} {path : Path} {first middle second last : Position}
  {links : Nat} {followed later : List Location} {met place : Location} {missing : Bool}

/-! ## Runs and the links that they follow -/

theorem Reaches.exists_follows (reached : boundary.Reaches disk first links last) :
    ∃ followed, followed.length = links ∧ boundary.Follows disk first followed last := by
  induction reached with
  | start => exact ⟨[], rfl, .start⟩
  | step moved _ ih =>
      obtain ⟨followed, same, follows⟩ := ih
      exact ⟨followed, same, .step moved follows⟩
  | hop hopped _ ih =>
      obtain ⟨followed, same, follows⟩ := ih
      cases hopped with
      | link found held => exact ⟨_ :: followed, congrArg (· + 1) same, .hop (.link found held) follows⟩

theorem Follows.through (hopped : Hop boundary disk first second)
    (follows : boundary.Follows disk first followed ⟨missing, place, []⟩) :
    ∃ here name rest later, first = ⟨false, here, .name name :: rest⟩ ∧
      followed = (here ++ [name]) :: later ∧
      boundary.Follows disk second later ⟨missing, place, []⟩ := by
  cases follows with
  | start => cases hopped
  | step moved _ => exact (moved.not_hop hopped).elim
  | hop other follows =>
      cases hopped.deterministic other
      exact ⟨_, _, _, _, rfl, rfl, follows⟩

/-- A run that has come to an end follows the links to each position that can be reached, and goes on
from there. -/
theorem Follows.split (reached : boundary.Reaches disk first links middle)
    (follows : boundary.Follows disk first followed ⟨missing, place, []⟩) :
    ∃ before later, followed = before ++ later ∧ before.length = links ∧
      boundary.Follows disk middle later ⟨missing, place, []⟩ := by
  induction reached generalizing followed with
  | start => exact ⟨[], followed, rfl, rfl, follows⟩
  | step moved _ ih =>
      cases follows with
      | start => cases moved
      | step other follows =>
          cases moved.deterministic other
          exact ih follows
      | hop hopped _ => exact (moved.not_hop hopped).elim
  | hop hopped _ ih =>
      obtain ⟨here, name, rest, onward, rfl, rfl, further⟩ := follows.through hopped
      obtain ⟨before, later, rfl, same, follows⟩ := ih further
      exact ⟨(here ++ [name]) :: before, later, rfl, congrArg (· + 1) same, follows⟩

/-- A run comes to the first link that it follows without another one. -/
theorem Follows.meets (follows : boundary.Follows disk first (met :: later) last) :
    ∃ here name rest second, met = here ++ [name] ∧
      boundary.Reaches disk first 0 ⟨false, here, .name name :: rest⟩ ∧
      Hop boundary disk ⟨false, here, .name name :: rest⟩ second ∧
      boundary.Follows disk second later last := by
  generalize all : met :: later = followed at follows
  induction follows with
  | start => cases all
  | step moved _ ih =>
      obtain ⟨here, name, rest, second, same, reached, onward⟩ := ih all
      exact ⟨here, name, rest, second, same, .step moved reached, onward⟩
  | hop hopped follows =>
      cases all
      exact ⟨_, _, _, _, rfl, .start, hopped, follows⟩

theorem Reaches.as_written (reached : boundary.Reaches disk first 0 last) :
    ∃ taken, first.parts = taken ++ last.parts ∧ last.here = Path.follow first.here taken := by
  generalize none : 0 = links at reached
  induction reached with
  | start => exact ⟨[], rfl, (Path.follow_nil _).symm⟩
  | hop => cases none
  | step moved _ ih =>
      obtain ⟨taken, same, ended⟩ := ih none
      cases moved with
      | root => exact ⟨.root :: taken, congrArg _ same, ended⟩
      | stay => exact ⟨.here :: taken, congrArg _ same, ended⟩
      | up => exact ⟨.up :: taken, congrArg _ same, ended.trans (Path.follow_up _ _).symm⟩
      | written => exact ⟨_ :: taken, congrArg _ same, ended.trans (Path.follow_name _ _ _).symm⟩
      | absent => exact ⟨_ :: taken, congrArg _ same, ended.trans (Path.follow_name _ _ _).symm⟩
      | enter => exact ⟨_ :: taken, congrArg _ same, ended.trans (Path.follow_name _ _ _).symm⟩

/-! ## From one link to the next -/

theorem Follows.next_inside {here : Location} {name : String} {rest : List Component}
    (stays : ¬ boundary.Strays disk path)
    (reached : boundary.Reaches disk (boundary.start path) links ⟨false, here, .name name :: rest⟩)
    (inside : Location.isWithin (here ++ [name]) boundary.root = true)
    (hopped : Hop boundary disk ⟨false, here, .name name :: rest⟩ second)
    (follows : boundary.Follows disk second (met :: later) last) :
    met.isWithin boundary.root = true := by
  obtain ⟨there, other, ahead, _, rfl, onward, hops, _⟩ := follows.meets
  obtain ⟨taken, same, ended⟩ := onward.as_written
  obtain ⟨found, _⟩ := hops
  dsimp only at same ended
  subst ended
  by_contra outside
  exact stays (.intro reached inside hopped same onward found (by simpa using outside))

theorem Follows.inward (stays : ¬ boundary.Strays disk path)
    (reached : boundary.Reaches disk (boundary.start path) links first)
    (follows : boundary.Follows disk first followed last) : boundary.Inward followed := by
  induction followed generalizing first links with
  | nil => exact .nil
  | cons met later ih =>
      obtain ⟨here, name, rest, second, rfl, onward, hopped, follows⟩ := follows.meets
      have arrived := reached.trans onward
      have tail := ih (arrived.trans (.hop hopped .start)) follows
      refine .cons ?_ tail
      intro other member inside
      cases later with
      | nil => cases member
      | cons next more =>
          have nextInside := follows.next_inside stays arrived inside hopped
          rcases List.mem_cons.1 member with rfl | further
          · exact nextInside
          · exact (List.pairwise_cons.1 tail).1 other further nextInside

theorem Strays.not_inward (strays : boundary.Strays disk path)
    (follows : boundary.Follows disk (boundary.start path) followed ⟨missing, place, []⟩) :
    ¬ boundary.Inward followed := by
  obtain ⟨reached, inside, hopped, same, onward, found, outside⟩ := strays
  obtain ⟨before, later, rfl, _, arrived⟩ := follows.split reached
  obtain ⟨_, _, _, later, ⟨⟩, rfl, beyond⟩ := arrived.through hopped
  obtain ⟨none, later, rfl, empty, outward⟩ := beyond.split onward
  obtain rfl := List.eq_nil_of_length_eq_zero empty
  obtain ⟨_, _, _, later, ⟨⟩, rfl, _⟩ :=
    outward.through (.link found fun within => absurd within (by simp [outside]))
  intro inward
  have after := (List.pairwise_cons.1 (List.pairwise_append.1 inward).2.1).1 _ (.head _) inside
  cases outside.symm.trans after

/-- Where what is ahead leads to no place beside the root, and the root stands, no link outside the
root is met. -/
theorem not_strays_of_keepsInward (stands : disk.find? boundary.root = some .directory)
    (keeps : boundary.KeepsInward disk path) : ¬ boundary.Strays disk path := by
  intro strays
  obtain @⟨_, _, _, _, second, taken, other, ahead, _, reached, inside, hopped, same, onward, found,
    outside⟩ := strays
  have sound := (reached.trans (.hop hopped onward)).sound (sound_start path)
  have link := Disk.find?_of_inspectLink sound.named_next sound.free_next found
  have within : taken ++ [.name other] <+: second.parts := by
    rw [same]
    exact ⟨ahead, List.append_cons .. |>.symm⟩
  have overlaps := keeps _ _ _ _ _ _ reached inside hopped within
  rw [Path.follow_concat] at overlaps
  rcases overlaps with above | below
  · have proper : Path.follow second.here taken ++ [other] ≠ boundary.root := by
      intro same
      rw [same] at outside
      cases outside.symm.trans (List.isPrefixOf_iff_prefix.2 List.prefix_rfl)
    cases link.symm.trans (Disk.directory_of_above stands above proper)
  · cases outside.symm.trans (List.isPrefixOf_iff_prefix.2 below)

/-- A link inside the root whose target leads out of the root, by its text, is refused as soon as
validation comes to it. -/
theorem validate_of_outward {here : Location} {name : String} {rest : List Component} {target : Path}
    (reached : boundary.Reaches disk (boundary.start path) links ⟨false, here, .name name :: rest⟩)
    (found : disk.inspectLink (Location.route (here ++ [name])) = .ok (.link target))
    (inside : Location.isWithin (here ++ [name]) boundary.root = true)
    (outward : (linkTarget here target).isWithin boundary.root = false)
    (few : links < boundary.linkBudget) :
    boundary.validate disk path =
      .error (.outsideRoot (boundary.redact (boundary.absolute path))) := by
  rw [validate_eq_conclude, (reached.settles (.leaves found inside outward)).conclude_eq,
    if_neg (by omega)]

/-- Where the boundary answers, it has followed links in some order, and after a link inside the root
none outside, unless what is ahead after a link inside, as it is written, comes to a link outside. As
long as no part of what is ahead leads to a place beside the root, that does not happen. A link inside
the root whose target leads out of the root is refused as soon as it is met. -/
theorem chain_stays_inward (boundary : Boundary) (disk : Disk) (path : Path) :
    (∀ place, boundary.validate disk path = .ok place → ∃ followed missing,
        boundary.Follows disk (boundary.start path) followed ⟨missing, place, []⟩ ∧
        followed.length ≤ boundary.linkBudget ∧
        (boundary.Inward followed ↔ ¬ boundary.Strays disk path)) ∧
      (disk.find? boundary.root = some .directory → boundary.KeepsInward disk path →
        ¬ boundary.Strays disk path) ∧
      ∀ links here name rest target,
        boundary.Reaches disk (boundary.start path) links ⟨false, here, .name name :: rest⟩ →
        disk.inspectLink (Location.route (here ++ [name])) = .ok (.link target) →
        Location.isWithin (here ++ [name]) boundary.root = true →
        (linkTarget here target).isWithin boundary.root = false → links < boundary.linkBudget →
        boundary.validate disk path =
          .error (.outsideRoot (boundary.redact (boundary.absolute path))) := by
  refine ⟨?_, not_strays_of_keepsInward, ?_⟩
  · intro place valid
    obtain ⟨_, links, missing, bounded, reached⟩ := reaches_of_validate valid
    obtain ⟨followed, same, follows⟩ := reached.exists_follows
    refine ⟨followed, missing, follows, same ▸ bounded, ?_⟩
    constructor
    · intro inward strays
      exact strays.not_inward follows inward
    · intro stays
      exact follows.inward stays .start
  · intro links here name rest target reached found inside outward few
    exact validate_of_outward reached found inside outward few

deriving instance DecidableEq for Position

/-- A project in which `l` leads through `d`, which stands for the project itself, to a link outside
that leads back to `y.txt`. The link `out` leads outside at once, and `alias` stays inside. -/
def wanderingDisk : Disk :=
  let outside := (Disk.blank.put [] "outside" .directory).put ["outside"] "back"
    (.link ⟨"/project/y.txt"⟩)
  let project := (outside.put [] "project" .directory).put ["project"] "y.txt" (.file .empty 0)
  let inner := (project.put ["project"] "a" .directory).put ["project", "a"] "d" (.link ⟨".."⟩)
  let linked := inner.put ["project", "a"] "l" (.link ⟨"d/../outside/back"⟩)
  (linked.put ["project"] "alias" (.link ⟨"a/../y.txt"⟩)).put ["project"] "out"
    (.link ⟨"../outside/back"⟩)

theorem Hop.of_target {here : Location} {name : String} {rest : List Component} (target : Path)
    (found : disk.inspectLink (Location.route (here ++ [name])) = .ok (.link target))
    (held : Location.isWithin (here ++ [name]) boundary.root = true →
      (linkTarget here target).isWithin boundary.root = true)
    (ends : ⟨false, if target.isAbsolute then [] else here, target.components ++ rest⟩ = second) :
    Hop boundary disk ⟨false, here, .name name :: rest⟩ second :=
  ends ▸ .link found held

theorem Reaches.past_step (moved : Step disk first second) (hopped : Hop boundary disk middle last)
    (reached : boundary.Reaches disk first links middle) :
    boundary.Reaches disk second links middle := by
  cases reached with
  | start => exact (moved.not_hop hopped).elim
  | step other reached =>
      cases moved.deterministic other
      exact reached
  | hop other _ => exact (moved.not_hop other).elim

theorem Reaches.past_hop (hopped : Hop boundary disk first second)
    (reached : boundary.Reaches disk first links middle) :
    first = middle ∨ ∃ fewer, boundary.Reaches disk second fewer middle := by
  cases reached with
  | start => exact .inl rfl
  | step moved _ => exact (moved.not_hop hopped).elim
  | hop other reached =>
      cases hopped.deterministic other
      exact .inr ⟨_, reached⟩

theorem chain_stays_inward_alias :
    projectBoundary.validate wanderingDisk ⟨"alias"⟩ = .ok ["project", "y.txt"] ∧
      projectBoundary.KeepsInward wanderingDisk ⟨"alias"⟩ ∧
      (∃ followed missing, projectBoundary.Follows wanderingDisk (projectBoundary.start ⟨"alias"⟩)
        followed ⟨missing, ["project", "y.txt"], []⟩ ∧ projectBoundary.Inward followed) ∧
      projectBoundary.validate wanderingDisk ⟨"out"⟩ = .error (.outsideRoot "out") := by
  have valid : projectBoundary.validate wanderingDisk ⟨"alias"⟩ = .ok ["project", "y.txt"] := by
    decide +kernel
  have project : wanderingDisk.inspectLink (Location.route ["project"]) = .ok .directory := by
    decide +kernel
  have inner : wanderingDisk.inspectLink (Location.route ["project", "a"]) = .ok .directory := by
    decide +kernel
  have file : wanderingDisk.inspectLink (Location.route ["project", "y.txt"]) =
      .ok (.file .empty 0) := by decide +kernel
  have begins : projectBoundary.start ⟨"alias"⟩ = ⟨false, [], [.name "project", .name "alias"]⟩ := by
    decide +kernel
  have through : Hop projectBoundary wanderingDisk ⟨false, ["project"], [.name "alias"]⟩
      ⟨false, ["project"], [.name "a", .up, .name "y.txt"]⟩ :=
    .of_target ⟨"a/../y.txt"⟩ (by decide +kernel) (by decide +kernel) (by decide +kernel)
  have keeps : projectBoundary.KeepsInward wanderingDisk ⟨"alias"⟩ := by
    intro links here name rest second taken reached _ hopped within
    rw [begins] at reached
    have entersProject : Step wanderingDisk ⟨false, [], [.name "project", .name "alias"]⟩
        ⟨false, ["project"], [.name "alias"]⟩ := .enter project nofun
    have entersInner : Step wanderingDisk ⟨false, ["project"], [.name "a", .up, .name "y.txt"]⟩
        ⟨false, ["project", "a"], [.up, .name "y.txt"]⟩ := .enter inner nofun
    have entersFile : Step wanderingDisk ⟨false, ["project"], [.name "y.txt"]⟩
        ⟨false, ["project", "y.txt"], []⟩ := .enter file nofun
    rcases (reached.past_step entersProject hopped).past_hop through with same | ⟨_, beyond⟩
    · cases same
      cases through.deterministic hopped
      have overlaps : ∀ taken ∈ [Component.name "a", .up, .name "y.txt"].inits,
          Location.Overlaps (Path.follow ["project"] taken) projectBoundary.root := by decide
      exact overlaps taken ((List.mem_inits _ _).2 within)
    · have ended := ((beyond.past_step entersInner hopped).past_step .up hopped).past_step
        entersFile hopped
      cases ended with
      | step moved _ => cases moved
      | hop other _ => cases other
  have stands : wanderingDisk.find? projectBoundary.root = some .directory := by decide +kernel
  obtain ⟨answered, stays, _⟩ := chain_stays_inward projectBoundary wanderingDisk ⟨"alias"⟩
  obtain ⟨followed, missing, follows, _, inward⟩ := answered _ valid
  refine ⟨valid, keeps, ⟨followed, missing, follows, inward.2 (stays stands keeps)⟩, ?_⟩
  have beginsOut : projectBoundary.start ⟨"out"⟩ = ⟨false, [], [.name "project", .name "out"]⟩ := by
    decide +kernel
  have reached : projectBoundary.Reaches wanderingDisk (projectBoundary.start ⟨"out"⟩) 0
      ⟨false, ["project"], [.name "out"]⟩ := beginsOut ▸ .step (.enter project nofun) .start
  have found : wanderingDisk.inspectLink (Location.route ["project", "out"]) =
      .ok (.link ⟨"../outside/back"⟩) := by decide +kernel
  have shown : projectBoundary.redact (projectBoundary.absolute ⟨"out"⟩) = "out" := by decide +kernel
  rw [← shown]
  exact (chain_stays_inward projectBoundary wanderingDisk ⟨"out"⟩).2.2 0 ["project"] "out" []
    ⟨"../outside/back"⟩ reached found (by decide +kernel) (by decide +kernel) (by decide +kernel)

/-- After two links inside the root the boundary follows one outside and answers where it leads. -/
theorem validate_follows_outside :
    projectBoundary.validate wanderingDisk ⟨"a/l"⟩ = .ok ["project", "y.txt"] ∧
      projectBoundary.Follows wanderingDisk (projectBoundary.start ⟨"a/l"⟩)
        [["project", "a", "l"], ["project", "a", "d"], ["outside", "back"]]
        ⟨false, ["project", "y.txt"], []⟩ ∧
      ¬ projectBoundary.Inward
        [["project", "a", "l"], ["project", "a", "d"], ["outside", "back"]] := by
  refine ⟨by decide +kernel, ?_, by unfold Inward; decide⟩
  have project : wanderingDisk.inspectLink (Location.route ["project"]) = .ok .directory := by
    decide +kernel
  have inner : wanderingDisk.inspectLink (Location.route ["project", "a"]) = .ok .directory := by
    decide +kernel
  have outside : wanderingDisk.inspectLink (Location.route ["outside"]) = .ok .directory := by
    decide +kernel
  have file : wanderingDisk.inspectLink (Location.route ["project", "y.txt"]) =
      .ok (.file .empty 0) := by decide +kernel
  have begins : projectBoundary.start ⟨"a/l"⟩ =
      ⟨false, [], [.name "project", .name "a", .name "l"]⟩ := by decide +kernel
  have through : Hop projectBoundary wanderingDisk ⟨false, ["project", "a"], [.name "l"]⟩
      ⟨false, ["project", "a"], [.name "d", .up, .name "outside", .name "back"]⟩ :=
    .of_target ⟨"d/../outside/back"⟩ (by decide +kernel) (by decide +kernel) (by decide +kernel)
  have up : Hop projectBoundary wanderingDisk
      ⟨false, ["project", "a"], [.name "d", .up, .name "outside", .name "back"]⟩
      ⟨false, ["project", "a"], [.up, .up, .name "outside", .name "back"]⟩ :=
    .of_target ⟨".."⟩ (by decide +kernel) (by decide +kernel) (by decide +kernel)
  have back : Hop projectBoundary wanderingDisk ⟨false, ["outside"], [.name "back"]⟩
      ⟨false, [], [.root, .name "project", .name "y.txt"]⟩ :=
    .of_target ⟨"/project/y.txt"⟩ (by decide +kernel) (by decide +kernel) (by decide +kernel)
  rw [begins]
  refine .step (.enter project nofun) (.step (.enter inner nofun) (.hop through (.hop up ?_)))
  refine .step .up (.step .up (.step (.enter outside nofun) (.hop back ?_)))
  exact .step .root (.step (.enter project nofun) (.step (.enter file nofun) .start))

end Boundary

end SourceBaseline
