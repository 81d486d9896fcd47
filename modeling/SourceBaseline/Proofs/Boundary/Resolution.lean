import Mathlib.Control.Monad.Basic
import SourceBaseline.Proofs.Boundary.Run
import SourceBaseline.Proofs.Path

/-!
# The boundary and physical resolution

Where every part of a path exists, the boundary finds the place that physical resolution finds, or
refuses the path. The two are compared step by step: they stand at the same place, nothing was
missing so far, and the names that are left lead through the same steps as the parts that are left.
-/

set_option autoImplicit false

namespace SourceBaseline.Boundary

variable {boundary : Boundary} {disk : Disk}

theorem Reaches.stays {here place : Location} {parts : List Component} {links : Nat}
    {missing last : Bool} (nowhere : Component.steps parts = [])
    (reached : boundary.Reaches disk ⟨missing, here, parts⟩ links ⟨last, place, []⟩) :
    place = here := by
  induction parts generalizing links with
  | nil =>
      cases reached with
      | start => rfl
      | step moved _ => cases moved
      | hop hopped _ => cases hopped
  | cons part rest ih =>
      cases part with
      | up => simp [Component.steps, Component.isStep] at nowhere
      | name name => simp [Component.steps, Component.isStep] at nowhere
      | root =>
          cases reached with
          | step moved later =>
              cases moved
              exact ih nowhere later
          | hop hopped _ => cases hopped
      | here =>
          cases reached with
          | step moved later =>
              cases moved
              exact ih nowhere later
          | hop hopped _ => cases hopped

theorem Reaches.comes_to_step {here place : Location} {parts steps : List Component}
    {part : Component} {links : Nat} {missing last : Bool}
    (first : Component.steps parts = part :: steps)
    (reached : boundary.Reaches disk ⟨missing, here, parts⟩ links ⟨last, place, []⟩) :
    ∃ rest, Component.steps rest = steps ∧ (part :: rest) <:+ parts ∧
      boundary.Reaches disk ⟨missing, here, part :: rest⟩ links ⟨last, place, []⟩ := by
  induction parts generalizing links with
  | nil => simp [Component.steps] at first
  | cons next rest ih =>
      have passes : ∀ {links}, Component.steps rest = part :: steps →
          boundary.Reaches disk ⟨missing, here, rest⟩ links ⟨last, place, []⟩ →
          ∃ more, Component.steps more = steps ∧ (part :: more) <:+ (next :: rest) ∧
            boundary.Reaches disk ⟨missing, here, part :: more⟩ links ⟨last, place, []⟩ := by
        intro links first later
        obtain ⟨more, same, within, reached⟩ := ih first later
        exact ⟨more, same, within.trans (List.suffix_cons _ _), reached⟩
      cases next with
      | up =>
          obtain ⟨rfl, same⟩ := List.cons.inj first
          exact ⟨rest, same, List.suffix_rfl, reached⟩
      | name name =>
          obtain ⟨rfl, same⟩ := List.cons.inj first
          exact ⟨rest, same, List.suffix_rfl, reached⟩
      | root =>
          cases reached with
          | step moved later =>
              cases moved
              exact passes first later
          | hop hopped _ => cases hopped
      | here =>
          cases reached with
          | step moved later =>
              cases moved
              exact passes first later
          | hop hopped _ => cases hopped

theorem Reaches.enters {here place : Location} {name : String} {rest : List Component}
    {entry : Entry} {links : Nat} {last : Bool}
    (sound : Position.Sound disk ⟨false, here, .name name :: rest⟩)
    (stands : disk.find? (here ++ [name]) = some entry) (noLink : entry.isLink = false)
    (reached : boundary.Reaches disk ⟨false, here, .name name :: rest⟩ links ⟨last, place, []⟩) :
    Position.Sound disk ⟨false, here ++ [name], rest⟩ ∧
      boundary.Reaches disk ⟨false, here ++ [name], rest⟩ links ⟨last, place, []⟩ := by
  cases reached with
  | step moved onward =>
      have next := moved.sound sound
      cases moved with
      | absent missing =>
          rw [Disk.find?_of_inspectLink_notFound sound.named_next sound.free_next missing] at stands
          cases stands
      | enter => exact ⟨next, onward⟩
  | hop hopped _ =>
      obtain ⟨link⟩ := hopped
      rw [Disk.find?_of_inspectLink sound.named_next sound.free_next link] at stands
      cases stands
      cases noLink

theorem Reaches.follows {here place : Location} {name : String} {rest : List Component}
    {target : Path} {links : Nat} {last : Bool}
    (sound : Position.Sound disk ⟨false, here, .name name :: rest⟩)
    (stands : disk.find? (here ++ [name]) = some (.link target))
    (reached : boundary.Reaches disk ⟨false, here, .name name :: rest⟩ links ⟨last, place, []⟩) :
    let next : Position :=
      ⟨false, if target.isAbsolute then [] else here, target.components ++ rest⟩
    next.Sound disk ∧ ∃ fewer, boundary.Reaches disk next fewer ⟨last, place, []⟩ := by
  cases reached with
  | step moved _ =>
      cases moved with
      | absent missing =>
          rw [Disk.find?_of_inspectLink_notFound sound.named_next sound.free_next missing] at stands
          cases stands
      | enter entry noLink =>
          rw [Disk.find?_of_inspectLink sound.named_next sound.free_next entry] at stands
          cases stands
          exact (noLink target rfl).elim
  | @hop _ _ _ fewer hopped onward =>
      have next := hopped.sound sound
      obtain ⟨link⟩ := hopped
      rw [Disk.find?_of_inspectLink sound.named_next sound.free_next link] at stands
      cases stands
      exact ⟨next, fewer, onward⟩

/-- From the same place on, the run ends where the names lead. -/
theorem Reaches.eq_of_leads {here place found : Location} {names : List String}
    {parts : List Component} {links : Nat} {last : Bool}
    (leads : disk.Leads true here names found)
    (same : Component.steps parts = names.filterMap Path.componentOf?)
    (whole : ∀ name ∈ names, name ≠ "")
    (sound : Position.Sound disk ⟨false, here, parts⟩)
    (reached : boundary.Reaches disk ⟨false, here, parts⟩ links ⟨last, place, []⟩) :
    place = found := by
  have later : ∀ {name : String} {rest : List String}, (∀ other ∈ name :: rest, other ≠ "") →
      ∀ other ∈ rest, other ≠ "" :=
    fun whole other member => whole other (.tail _ member)
  have ordinary : ∀ {name : String}, name ≠ "" → name ≠ "." → name ≠ ".." →
      Path.componentOf? name = some (.name name) := by
    intro name nonempty notHere notUp
    simp [Path.componentOf?, Path.isVoid, nonempty, notHere, notUp]
  -- The run makes the steps of the resolution, since each position has one step or hop.
  induction leads generalizing parts links with
  | nil => exact reached.stays same
  | stay _ ih => exact ih same (later whole) sound reached
  | up _ ih =>
      obtain ⟨rest, same, within, reached⟩ := reached.comes_to_step same
      cases reached with
      | step moved onward =>
          have next := moved.sound (sound.of_suffix within)
          cases moved
          exact ih same (later whole) next onward
      | hop hopped _ => cases hopped
  | @enter here name names found notHere notUp stands _ ih =>
      rw [List.filterMap_cons_some (ordinary (whole name (.head _)) notHere notUp)] at same
      obtain ⟨rest, same, within, reached⟩ := reached.comes_to_step same
      obtain ⟨next, onward⟩ := reached.enters (sound.of_suffix within) stands rfl
      exact ih same (later whole) next onward
  | @file here name content age notHere notUp stands =>
      rw [List.filterMap_cons_some (ordinary (whole name (.head _)) notHere notUp)] at same
      obtain ⟨rest, same, within, reached⟩ := reached.comes_to_step same
      obtain ⟨_, onward⟩ := reached.enters (sound.of_suffix within) stands rfl
      exact onward.stays same
  | last _ _ _ notFollowed => cases notFollowed
  | @follow here name names target found notHere notUp stands _ ih =>
      rw [List.filterMap_cons_some (ordinary (whole name (.head _)) notHere notUp)] at same
      obtain ⟨rest, same, within, reached⟩ := reached.comes_to_step same
      obtain ⟨next, fewer, onward⟩ := reached.follows (sound.of_suffix within) stands
      refine ih ?_ ?_ next onward
      · rw [Component.steps_append, List.filterMap_append, Path.filterMap_walkNames_eq_steps, same]
      · intro other member
        rcases List.mem_append.1 member with ahead | behind
        · exact (Path.undivided_of_mem_walkNames ahead).1
        · exact whole other (.tail _ behind)

theorem steps_start (path : Path) :
    Component.steps (boundary.start path).parts =
      (boundary.absolute path).walkNames.filterMap Path.componentOf? := by
  rw [absolute, Path.filterMap_walkNames, start]
  by_cases top : path.isAbsolute = true
  · have joined : boundary.root.path.join path = path := by simp [Path.join, top]
    rw [joined, if_pos top, Path.steps_components]
  · have relative : path.isAbsolute = false := by simpa using top
    have rootSteps : Component.steps (boundary.root.map .name) = boundary.root.map .name := by
      apply List.filter_eq_self.2
      intro part member
      obtain ⟨name, _, rfl⟩ := List.mem_map.1 member
      rfl
    rw [if_neg top, Component.steps_append, rootSteps, Path.steps_components]
    exact (Path.filterMap_pieces_join boundary.named relative).symm

/-- Where physical resolution succeeds, the boundary either answers the place that it finds or
refuses the path, and it refuses every path that is resolved to a place outside the root. -/
theorem validate_of_leads {path : Path} {found : Location}
    (leads : disk.Leads true [] (boundary.absolute path).walkNames found) :
    (∀ place, boundary.validate disk path = .ok place → place = found) ∧
      (found.isWithin boundary.root = false →
        ∃ error, boundary.validate disk path = .error error) := by
  have agrees : ∀ place, boundary.validate disk path = .ok place → place = found := by
    intro place valid
    obtain ⟨_, links, missing, _, reached⟩ := reaches_of_validate valid
    exact reached.eq_of_leads leads (steps_start path)
      (fun name member => (Path.undivided_of_mem_walkNames member).1) (sound_start path)
  refine ⟨agrees, ?_⟩
  intro outside
  cases valid : boundary.validate disk path with
  | error error => exact ⟨error, rfl⟩
  | ok place =>
      have within := (reaches_of_validate valid).1
      rw [agrees place valid, outside] at within
      cases within

/-- A project in which `alias` stands for a directory two levels down. -/
def nestedDisk : Disk :=
  let project := (Disk.blank.put [] "outside" .directory).put [] "project" .directory
  let deep := (project.put ["project"] "deep" .directory).put ["project", "deep"] "inner" .directory
  let linked := deep.put ["project"] "alias" (.link ⟨"deep/inner"⟩)
  (linked.put ["project", "deep"] "kept" (.file .empty 0)).put ["project", "deep"] "left"
    (.link ⟨"../../outside"⟩)

theorem validate_of_leads_nested :
    nestedDisk.Leads true [] (absolute ⟨["project"], 8, by decide⟩ ⟨"alias/../kept"⟩).walkNames
        ["project", "deep", "kept"] ∧
      validate ⟨["project"], 8, by decide⟩ nestedDisk ⟨"alias/../kept"⟩ =
        .ok ["project", "deep", "kept"] ∧
      nestedDisk.Leads true [] (absolute ⟨["project"], 8, by decide⟩ ⟨"alias/../left"⟩).walkNames
        ["outside"] ∧
      ∃ error, validate ⟨["project"], 8, by decide⟩ nestedDisk ⟨"alias/../left"⟩ = .error error := by
  have kept : nestedDisk.Leads true []
      (absolute ⟨["project"], 8, by decide⟩ ⟨"alias/../kept"⟩).walkNames
      ["project", "deep", "kept"] :=
    Disk.leads_of_canonical (by decide +kernel)
  have left : nestedDisk.Leads true []
      (absolute ⟨["project"], 8, by decide⟩ ⟨"alias/../left"⟩).walkNames ["outside"] :=
    Disk.leads_of_canonical (by decide +kernel)
  have answered : (validate ⟨["project"], 8, by decide⟩ nestedDisk ⟨"alias/../kept"⟩).isOk := by
    decide +kernel
  refine ⟨kept, ?_, left, (validate_of_leads left).2 (by decide)⟩
  cases valid : validate ⟨["project"], 8, by decide⟩ nestedDisk ⟨"alias/../kept"⟩ with
  | error error =>
      rw [valid] at answered
      cases answered
  | ok place => rw [(validate_of_leads kept).1 place valid]

end SourceBaseline.Boundary
