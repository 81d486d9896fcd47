import SourceBaseline.Boundary
import SourceBaseline.Proofs.Disk.Straight

/-!
# Runs of the boundary

The validation of a path as a machine: its positions, the steps between them and the hops through
links. `reaches_of_resolve` ties every answer of the boundary to a run within its link budget, and
`Sound` is what every position of a run satisfies.
-/

set_option autoImplicit false

namespace SourceBaseline.Boundary

/-- Where a validation stands: whether a part before was missing, the place reached so far and the
parts that are left. -/
structure Position where
  missing : Bool
  here : Location
  parts : List Component

/-- A step that follows no link. -/
inductive Step (disk : Disk) : Position → Position → Prop where
  | root {missing here rest} : Step disk ⟨missing, here, .root :: rest⟩ ⟨missing, here, rest⟩
  | stay {missing here rest} : Step disk ⟨missing, here, .here :: rest⟩ ⟨missing, here, rest⟩
  | up {missing here rest} : Step disk ⟨missing, here, .up :: rest⟩ ⟨missing, here.dropLast, rest⟩
  | written {here name rest} :
      Step disk ⟨true, here, .name name :: rest⟩ ⟨true, here ++ [name], rest⟩
  | absent {here name rest} :
      disk.inspectLink (Location.route (here ++ [name])) = .error .notFound →
      Step disk ⟨false, here, .name name :: rest⟩ ⟨true, here ++ [name], rest⟩
  | enter {here name rest entry} :
      disk.inspectLink (Location.route (here ++ [name])) = .ok entry →
      (∀ target, entry ≠ .link target) →
      Step disk ⟨false, here, .name name :: rest⟩ ⟨false, here ++ [name], rest⟩

/-- A hop through a link. Only a link inside the root is held to a target inside the root. -/
inductive Hop (boundary : Boundary) (disk : Disk) : Position → Position → Prop where
  | link {here name rest target} :
      disk.inspectLink (Location.route (here ++ [name])) = .ok (.link target) →
      (Location.isWithin (here ++ [name]) boundary.root = true →
        (linkTarget here target).isWithin boundary.root = true) →
      Hop boundary disk ⟨false, here, .name name :: rest⟩
        ⟨false, if target.isAbsolute then [] else here, target.components ++ rest⟩

/-- One position leads to another through that many links. -/
inductive Reaches (boundary : Boundary) (disk : Disk) : Position → Nat → Position → Prop where
  | start {position} : Reaches boundary disk position 0 position
  | step {first second last links} :
      Step disk first second → Reaches boundary disk second links last →
      Reaches boundary disk first links last
  | hop {first second last links} :
      Hop boundary disk first second → Reaches boundary disk second links last →
      Reaches boundary disk first (links + 1) last

/-- Where the validation of a path begins. -/
def start (boundary : Boundary) (path : Path) : Position :=
  ⟨false, [],
    if path.isAbsolute then path.components
    else boundary.root.map .name ++ path.components⟩

variable {boundary : Boundary} {disk : Disk}

theorem Reaches.trans {first second last : Position} {links more : Nat}
    (before : boundary.Reaches disk first links second)
    (after : boundary.Reaches disk second more last) :
    boundary.Reaches disk first (links + more) last := by
  induction before with
  | start => simpa using after
  | step moved _ ih => exact .step moved (ih after)
  | hop hopped _ ih =>
      rw [Nat.add_right_comm]
      exact .hop hopped (ih after)

theorem Step.deterministic {first second other : Position} (left : Step disk first second)
    (right : Step disk first other) : second = other := by
  cases left with
  | root => cases right; rfl
  | stay => cases right; rfl
  | up => cases right; rfl
  | written => cases right; rfl
  | absent missing =>
      cases right with
      | absent => rfl
      | enter found => rw [missing] at found; cases found
  | enter found =>
      cases right with
      | absent missing => rw [missing] at found; cases found
      | enter => rfl

theorem Hop.deterministic {first second other : Position} (left : Hop boundary disk first second)
    (right : Hop boundary disk first other) : second = other := by
  obtain ⟨found⟩ := left
  obtain ⟨again⟩ := right
  rw [found] at again
  cases again
  rfl

theorem Step.not_hop {first second other : Position} (left : Step disk first second)
    (right : Hop boundary disk first other) : False := by
  obtain ⟨link⟩ := right
  cases left with
  | absent missing => rw [missing] at link; cases link
  | enter found noLink =>
      rw [link] at found
      cases found
      exact noLink _ rfl

/-- A run that has come to an end passes every position that can be reached from its beginning. -/
theorem Reaches.continues {first middle : Position} {links total : Nat} {missing : Bool}
    {place : Location} (reached : boundary.Reaches disk first links middle)
    (ended : boundary.Reaches disk first total ⟨missing, place, []⟩) :
    ∃ more, boundary.Reaches disk middle more ⟨missing, place, []⟩ := by
  induction reached generalizing total with
  | start => exact ⟨total, ended⟩
  | step moved _ ih =>
      cases ended with
      | start => cases moved
      | step other ended =>
          cases moved.deterministic other
          exact ih ended
      | hop hopped _ => exact (moved.not_hop hopped).elim
  | hop hopped _ ih =>
      cases ended with
      | start => cases hopped
      | step other _ => exact (other.not_hop hopped).elim
      | hop other ended =>
          cases hopped.deterministic other
          exact ih ended

/-! ## Answers and runs -/

theorem reaches_of_proceed {budget : Nat} {place : Location}
    {onLink : Location → String → Path → List Component → Outcome Location}
    (hop : ∀ {here name target rest},
      disk.inspectLink (Location.route (here ++ [name])) = .ok (.link target) →
      onLink here name target rest = .ok place →
      ∃ links last, links ≤ budget ∧
        boundary.Reaches disk ⟨false, here, .name name :: rest⟩ links ⟨last, place, []⟩)
    {missing : Bool} {here : Location} {parts : List Component}
    (found : proceed disk onLink missing here parts = .ok place) :
    ∃ links last, links ≤ budget ∧
      boundary.Reaches disk ⟨missing, here, parts⟩ links ⟨last, place, []⟩ := by
  have extend : ∀ {first second : Position}, Step disk first second →
      (∃ links last, links ≤ budget ∧ boundary.Reaches disk second links ⟨last, place, []⟩) →
      ∃ links last, links ≤ budget ∧ boundary.Reaches disk first links ⟨last, place, []⟩ := by
    intro first second moved later
    obtain ⟨links, last, bounded, reached⟩ := later
    exact ⟨links, last, bounded, .step moved reached⟩
  induction parts generalizing missing here with
  | nil =>
      simp only [proceed, Except.ok.injEq] at found
      subst found
      exact ⟨0, missing, Nat.zero_le _, .start⟩
  | cons part rest ih =>
      cases part with
      | root => exact extend .root (ih (by cases missing <;> simpa [proceed] using found))
      | here => exact extend .stay (ih (by cases missing <;> simpa [proceed] using found))
      | up => exact extend .up (ih (by cases missing <;> simpa [proceed] using found))
      | name name =>
          cases missing with
          | true => exact extend .written (ih (by simpa [proceed] using found))
          | false =>
              rw [proceed] at found
              split at found
              next absent => exact extend (.absent absent) (ih found)
              next => cases found
              next target link => exact hop link found
              next entry noLink stands => exact extend (.enter stands noLink) (ih found)

/-- Whatever place is found within a link budget, a run through at most that many links ends there. -/
theorem reaches_of_resolve {shown : String} {budget : Nat} {here place : Location}
    {parts : List Component} (found : boundary.resolve disk shown budget here parts = .ok place) :
    ∃ links missing, links ≤ budget ∧
      boundary.Reaches disk ⟨false, here, parts⟩ links ⟨missing, place, []⟩ := by
  induction budget generalizing here parts with
  | zero => exact reaches_of_proceed (fun _ refused => by cases refused) found
  | succ budget ih =>
      apply reaches_of_proceed ?_ found
      intro here name target rest link followed
      split at followed
      next => cases followed
      next allowed =>
        obtain ⟨links, missing, bounded, reached⟩ := ih followed
        refine ⟨links + 1, missing, Nat.succ_le_succ bounded, .hop (.link link ?_) reached⟩
        intro inside
        simpa [inside] using allowed

theorem reaches_of_validate {path : Path} {place : Location}
    (valid : boundary.validate disk path = .ok place) :
    place.isWithin boundary.root = true ∧ ∃ links missing, links ≤ boundary.linkBudget ∧
      boundary.Reaches disk (boundary.start path) links ⟨missing, place, []⟩ := by
  obtain ⟨found, resolved, checked⟩ := bind_eq_ok_iff.1 valid
  split at checked
  next inside =>
    cases checked
    exact ⟨inside, reaches_of_resolve resolved⟩
  next => cases checked

/-! ## What every position satisfies -/

/-- Only names have been taken and are left, and while nothing was missing no link stands on the
way to the place reached. -/
structure Position.Sound (disk : Disk) (position : Position) : Prop where
  named : ∀ name ∈ position.here, IsName name
  ahead : ∀ name, .name name ∈ position.parts → IsName name
  free : position.missing = false → disk.LinkFree position.here

theorem Position.Sound.of_suffix {missing : Bool} {here : Location} {parts rest : List Component}
    (sound : Position.Sound disk ⟨missing, here, parts⟩) (within : rest <:+ parts) :
    Position.Sound disk ⟨missing, here, rest⟩ :=
  ⟨sound.named, fun name member => sound.ahead name (within.subset member), sound.free⟩

theorem Position.Sound.named_next {missing : Bool} {here : Location} {name : String}
    {rest : List Component} (sound : Position.Sound disk ⟨missing, here, .name name :: rest⟩) :
    ∀ other ∈ here ++ [name], IsName other := by
  intro other member
  rcases List.mem_append.1 member with before | last
  · exact sound.named other before
  · have same : other = name := by simpa using last
    exact same ▸ sound.ahead name (.head _)

theorem Position.Sound.free_next {here : Location} {name : String} {rest : List Component}
    (sound : Position.Sound disk ⟨false, here, .name name :: rest⟩) :
    disk.LinkFree (List.dropLast (here ++ [name])) := by
  rw [List.dropLast_concat]
  exact sound.free rfl

theorem Position.Sound.linkFree_below {here place : Location} {name : String}
    {rest : List Component}
    (sound : Position.Sound disk ⟨false, here, .name name :: rest⟩)
    (absent : disk.inspectLink (Location.route (here ++ [name])) = .error .notFound)
    (within : (here ++ [name]) <+: place) : disk.LinkFree place := by
  have missing : disk.find? (here ++ [name]) = none :=
    Disk.find?_of_inspectLink_notFound sound.named_next sound.free_next absent
  intro top target above link
  rcases List.prefix_or_prefix_of_prefix above within with higher | ⟨more, deeper⟩
  · rcases List.prefix_concat_iff.1 higher with same | before
    · rw [same, missing] at link
      cases link
    · exact sound.free rfl top target before link
  · subst deeper
    by_cases last : more = []
    · rw [last, List.append_nil, missing] at link
      cases link
    · rw [Disk.find?_below_leaf (by rw [missing]; exact nofun) last] at link
      cases link

theorem Step.sound {first second : Position} (moved : Step disk first second)
    (sound : first.Sound disk) : second.Sound disk := by
  have later : ∀ {missing here part rest},
      Position.Sound disk ⟨missing, here, part :: rest⟩ → ∀ name, .name name ∈ rest → IsName name :=
    fun sound => (sound.of_suffix (List.suffix_cons _ _)).ahead
  cases moved with
  | root => exact ⟨sound.named, later sound, sound.free⟩
  | stay => exact ⟨sound.named, later sound, sound.free⟩
  | up =>
      refine ⟨?_, later sound, ?_⟩
      · intro name member
        exact sound.named name (List.dropLast_subset _ member)
      · intro present
        exact (sound.free present).above (List.dropLast_prefix _)
  | written => exact ⟨sound.named_next, later sound, nofun⟩
  | absent _ => exact ⟨sound.named_next, later sound, nofun⟩
  | enter found noLink =>
      refine ⟨sound.named_next, later sound, ?_⟩
      intro _
      apply (sound.free rfl).concat
      intro target link
      have stands := Disk.find?_of_inspectLink sound.named_next sound.free_next found
      rw [stands] at link
      cases link
      exact noLink target rfl

theorem Hop.sound {first second : Position} (hopped : Hop boundary disk first second)
    (sound : first.Sound disk) : second.Sound disk := by
  cases hopped with
  | @link here name rest target _ _ =>
      refine ⟨?_, ?_, ?_⟩
      · intro other member
        dsimp only at member
        split at member
        · cases member
        · exact sound.named other member
      · intro other member
        rcases List.mem_append.1 member with inTarget | later
        · exact Path.isName_of_mem_components inTarget
        · exact sound.ahead other (.tail _ later)
      · intro _
        dsimp only
        split
        · exact Disk.linkFree_nil
        · exact sound.free rfl

theorem Reaches.sound {first last : Position} {links : Nat}
    (reached : boundary.Reaches disk first links last) (sound : first.Sound disk) :
    last.Sound disk := by
  induction reached with
  | start => exact sound
  | step moved _ ih => exact ih (moved.sound sound)
  | hop hopped _ ih => exact ih (hopped.sound sound)

theorem sound_start (path : Path) : (boundary.start path).Sound disk := by
  refine ⟨nofun, ?_, fun _ => Disk.linkFree_nil⟩
  intro name member
  dsimp only [start] at member
  split at member
  · exact Path.isName_of_mem_components member
  · rcases List.mem_append.1 member with inRoot | inPath
    · obtain ⟨other, inside, same⟩ := List.mem_map.1 inRoot
      cases same
      exact boundary.named name inside
    · exact Path.isName_of_mem_components inPath

theorem isName_of_validate {path : Path} {place : Location}
    (valid : boundary.validate disk path = .ok place) : ∀ name ∈ place, IsName name := by
  obtain ⟨_, links, missing, _, reached⟩ := reaches_of_validate valid
  exact (reached.sound (sound_start path)).named

end SourceBaseline.Boundary
