import SourceBaseline.Proofs.Boundary.Run
import SourceBaseline.Proofs.Disk.Alike
import SourceBaseline.Proofs.Path

/-!
# What the boundary looks at

The boundary asks a disk for the entries on its run and for nothing else. If all of them lie around
the root, disks that are alike give the same answer.
-/

set_option autoImplicit false

namespace SourceBaseline.Boundary

variable {boundary : Boundary} {first second disk : Disk} {path : Path} {place : Location}

/-- Every entry that is looked at for a path is on the way to the root or in it. -/
def KeepsInside (boundary : Boundary) (disk : Disk) (path : Path) : Prop :=
  ∀ links here name rest, links ≤ boundary.linkBudget →
    boundary.Reaches disk (boundary.start path) links ⟨false, here, .name name :: rest⟩ →
    Location.Overlaps (here ++ [name]) boundary.root

/-- Only entries around the root are looked at for the path, and the answer lies behind no link. -/
structure Grounded (boundary : Boundary) (disk : Disk) (path : Path) : Prop where
  inside : boundary.KeepsInside disk path
  free : ∀ place, boundary.validate disk path = .ok place → disk.LinkFree place

/-- Two disks that give the same answers along a run are followed to the same end, as long as links
that are met are followed to the same end. -/
theorem proceed_congr {onLink onLinkToo : Location → String → Path → List Component → Outcome Location}
    {missing : Bool} {here : Location} {parts : List Component}
    (asked : ∀ place name rest,
      boundary.Reaches first ⟨missing, here, parts⟩ 0 ⟨false, place, .name name :: rest⟩ →
      first.inspectLink (Location.route (place ++ [name])) =
        second.inspectLink (Location.route (place ++ [name])))
    (followed : ∀ place name rest target,
      boundary.Reaches first ⟨missing, here, parts⟩ 0 ⟨false, place, .name name :: rest⟩ →
      first.inspectLink (Location.route (place ++ [name])) = .ok (.link target) →
      onLink place name target rest = onLinkToo place name target rest) :
    proceed first onLink missing here parts = proceed second onLinkToo missing here parts := by
  induction parts generalizing missing here with
  | nil => cases missing <;> rfl
  | cons part rest ih =>
      have later : ∀ {missingThen : Bool} {next : Location},
          Step first ⟨missing, here, part :: rest⟩ ⟨missingThen, next, rest⟩ →
          proceed first onLink missingThen next rest =
            proceed second onLinkToo missingThen next rest := by
        intro missingThen next moved
        apply ih
        · intro place name left reached
          exact asked place name left (.step moved reached)
        · intro place name left target reached link
          exact followed place name left target (.step moved reached) link
      cases part with
      | root => cases missing <;> simpa only [proceed] using later .root
      | here => cases missing <;> simpa only [proceed] using later .stay
      | up => cases missing <;> simpa only [proceed] using later .up
      | name name =>
          cases missing with
          | true => simpa only [proceed] using later .written
          | false =>
              rw [proceed, proceed, ← asked here name rest .start]
              split
              next absent => exact later (.absent absent)
              next => rfl
              next target link => exact followed here name rest target .start link
              next entry noLink stands => exact later (.enter stands noLink)

theorem resolve_congr {shown : String} {budget : Nat} {here : Location} {parts : List Component}
    (asked : ∀ links place name rest, links ≤ budget →
      boundary.Reaches first ⟨false, here, parts⟩ links ⟨false, place, .name name :: rest⟩ →
      first.inspectLink (Location.route (place ++ [name])) =
        second.inspectLink (Location.route (place ++ [name]))) :
    boundary.resolve first shown budget here parts =
      boundary.resolve second shown budget here parts := by
  induction budget generalizing here parts with
  | zero =>
      rw [resolve, resolve]
      have now : ∀ place name rest, _ := fun place name rest =>
        asked 0 place name rest (Nat.le_refl 0)
      apply proceed_congr now
      intro place name rest target _ _
      rfl
  | succ budget ih =>
      rw [resolve, resolve]
      have now : ∀ place name rest, _ := fun place name rest =>
        asked 0 place name rest (Nat.zero_le _)
      apply proceed_congr now
      intro place name rest target reached link
      split
      next => rfl
      next allowed =>
        have held : Location.isWithin (place ++ [name]) boundary.root = true →
            (linkTarget place target).isWithin boundary.root = true := by
          intro inside
          simpa [inside] using allowed
        apply ih
        intro links next other left bounded onward
        apply asked (links + 1) next other left (Nat.succ_le_succ bounded)
        have hopped := reached.trans (.hop (.link link held) onward)
        rwa [Nat.zero_add] at hopped

theorem validate_congr_of_agreesTo
    (agrees : ∀ links here name rest, links ≤ boundary.linkBudget →
      boundary.Reaches first (boundary.start path) links ⟨false, here, .name name :: rest⟩ →
      first.AgreesTo (here ++ [name]) second) :
    boundary.validate first path = boundary.validate second path := by
  have resolved : ∀ shown,
      boundary.resolve first shown boundary.linkBudget [] (boundary.start path).parts =
        boundary.resolve second shown boundary.linkBudget [] (boundary.start path).parts := by
    intro shown
    apply resolve_congr
    intro links place name rest bounded reached
    have sound := reached.sound (sound_start path)
    exact (agrees links place name rest bounded reached).inspectLink sound.named_next sound.free_next
  unfold validate
  exact congrArg (· >>= _) (resolved _)

theorem validate_congr (alike : first.Alike boundary.root second)
    (inside : boundary.KeepsInside first path) :
    boundary.validate first path = boundary.validate second path :=
  validate_congr_of_agreesTo fun links here name rest bounded reached =>
    alike.agreesTo (inside links here name rest bounded reached)

theorem overlaps_of_validate (valid : boundary.validate disk path = .ok place) :
    place.Overlaps boundary.root :=
  .inr (List.isPrefixOf_iff_prefix.1 (reaches_of_validate valid).1)

/-! ## Paths that keep to some locations -/

/-- Only such locations are looked at for the path, and the answer is one of them, behind no link. -/
structure KeepsTo (boundary : Boundary) (disk : Disk) (path : Path) (among : Location → Prop) :
    Prop where
  looks : ∀ links here name rest, links ≤ boundary.linkBudget →
    boundary.Reaches disk (boundary.start path) links ⟨false, here, .name name :: rest⟩ →
    among (here ++ [name])
  answers : ∀ place, boundary.validate disk path = .ok place → among place ∧ disk.LinkFree place

namespace KeepsTo

variable {among : Location → Prop} (keeps : boundary.KeepsTo first path among)
  (agrees : ∀ location, among location → first.AgreesTo location second)

include keeps agrees

theorem validate : boundary.validate first path = boundary.validate second path :=
  validate_congr_of_agreesTo fun links here name rest bounded reached =>
    agrees _ (keeps.looks links here name rest bounded reached)

theorem inspect (valid : boundary.validate first path = .ok place) :
    first.inspect (Location.route place) = second.inspect (Location.route place) := by
  obtain ⟨known, free⟩ := keeps.answers place valid
  exact (agrees place known).inspect (isName_of_validate valid) free

end KeepsTo

theorem Grounded.keepsTo (grounded : boundary.Grounded disk path) :
    boundary.KeepsTo disk path (Location.Overlaps · boundary.root) :=
  ⟨grounded.inside, fun place valid => ⟨overlaps_of_validate valid, grounded.free place valid⟩⟩

theorem Grounded.inspect (grounded : boundary.Grounded first path)
    (alike : first.Alike boundary.root second) (valid : boundary.validate first path = .ok place) :
    first.inspect (Location.route place) = second.inspect (Location.route place) :=
  grounded.keepsTo.inspect (fun _ overlaps => alike.agreesTo overlaps) valid

/-- The path leads to the same place on both disks, and what is found there is the same. -/
structure AnswersAlike (boundary : Boundary) (first second : Disk) (path : Path) : Prop where
  place : boundary.validate first path = boundary.validate second path
  found : ∀ place, boundary.validate first path = .ok place →
    first.inspect (Location.route place) = second.inspect (Location.route place)

theorem Grounded.answersAlike (grounded : boundary.Grounded first path)
    (alike : first.Alike boundary.root second) : boundary.AnswersAlike first second path :=
  ⟨validate_congr alike grounded.inside, fun _ => grounded.inspect alike⟩

/-! ## Paths that only descend -/

/-- The location that a path names if all its steps lead down. -/
def descent? (boundary : Boundary) (path : Path) : Option Location :=
  (Component.steps (boundary.start path).parts).mapM fun part =>
    match part with
    | .name name => some name
    | _ => none

theorem descent?_of_steps {location : Location}
    (steps : Component.steps (boundary.start path).parts = location.map .name) :
    boundary.descent? path = some location := by
  unfold descent?
  rw [steps]
  clear steps
  induction location with
  | nil => rfl
  | cons name rest ih => simp [List.mapM_cons, ih]

theorem steps_of_descent? {location : Location} (descends : boundary.descent? path = some location) :
    Component.steps (boundary.start path).parts = location.map .name := by
  unfold descent? at descends
  revert descends
  generalize Component.steps (boundary.start path).parts = parts
  intro descends
  induction parts generalizing location with
  | nil =>
      cases descends
      rfl
  | cons part rest ih =>
      cases part with
      | name name =>
          rw [List.mapM_cons] at descends
          obtain ⟨found, same, descends⟩ := Option.bind_eq_some_iff.1 descends
          obtain ⟨more, later, whole⟩ := Option.bind_eq_some_iff.1 descends
          cases same
          cases whole
          rw [ih later]
          rfl
      | root => simp at descends
      | here => simp at descends
      | up => simp at descends

/-- Every link at the location or on the way to it stands in the root and leads straight out of it. -/
def RefusesLinks (boundary : Boundary) (disk : Disk) (location : Location) : Prop :=
  ∀ top target, top <+: location → disk.find? top = some (.link target) →
    Location.isWithin top boundary.root = true ∧
      (linkTarget top.dropLast target).isWithin boundary.root = false

/-- Whether an entry is no link, or stands in the root and leads straight out of it. -/
def refuses (boundary : Boundary) (top : Location) : Entry → Bool
  | .link target =>
      top.isWithin boundary.root && !(linkTarget top.dropLast target).isWithin boundary.root
  | _ => true

instance (boundary : Boundary) (disk : Disk) (location : Location) :
    Decidable (boundary.RefusesLinks disk location) :=
  decidable_of_iff
    (∀ top ∈ Location.ancestors location, (disk.find? top).all (boundary.refuses top)) (by
      constructor
      · intro all top target within link
        have refused := all top (Location.mem_ancestors_iff.2 within)
        rw [link] at refused
        simpa [refuses] using refused
      · intro refused top member
        cases stands : disk.find? top with
        | none => rfl
        | some entry =>
            cases entry with
            | link target =>
                simpa [refuses] using
                  refused top target (Location.mem_ancestors_iff.1 member) stands
            | file content age => rfl
            | directory => rfl)

theorem refusesLinks_of_linkFree {location : Location} (free : disk.LinkFree location) :
    boundary.RefusesLinks disk location :=
  fun top target within link => absurd link (free top target within)

/-- While a path descends and every link is refused, what has been reached and what is left make up
the location that it names. Once a part was missing, no link stands on the way to it at all. -/
theorem Reaches.descends {here start : Position} {location rest : Location} {links : Nat}
    (reached : boundary.Reaches disk start links here) (sound : start.Sound disk)
    (refuses : boundary.RefusesLinks disk location)
    (steps : Component.steps start.parts = rest.map .name) (whole : start.here ++ rest = location)
    (gone : start.missing = true → disk.LinkFree location) :
    ∃ left, Component.steps here.parts = left.map .name ∧ here.here ++ left = location ∧
      (here.missing = true → disk.LinkFree location) := by
  have advance : ∀ {here rest : Location} {name : String} {parts : List Component},
      Component.steps (.name name :: parts) = rest.map .name → here ++ rest = location →
      ∃ more, Component.steps parts = more.map .name ∧ (here ++ [name]) ++ more = location := by
    intro here rest name parts steps whole
    cases rest with
    | nil => cases steps
    | cons first more =>
        obtain ⟨same, later⟩ := List.cons.inj steps
        cases same
        exact ⟨more, later, by simpa using whole⟩
  -- No link is ever followed: those on the way to the location are all refused.
  induction reached generalizing rest with
  | start => exact ⟨rest, steps, whole, gone⟩
  | step moved _ ih =>
      have next := moved.sound sound
      cases moved with
      | root => exact ih next steps whole gone
      | stay => exact ih next steps whole gone
      | up =>
          cases rest with
          | nil => cases steps
          | cons first more => cases (List.cons.inj steps).1
      | written =>
          obtain ⟨more, later, onward⟩ := advance steps whole
          exact ih next later onward gone
      | absent absent =>
          obtain ⟨more, later, onward⟩ := advance steps whole
          exact ih next later onward fun _ => sound.linkFree_below absent ⟨more, onward⟩
      | enter _ _ =>
          obtain ⟨more, later, onward⟩ := advance steps whole
          exact ih next later onward gone
  | hop hopped _ _ =>
      obtain ⟨link, held⟩ := hopped
      obtain ⟨more, _, onward⟩ := advance steps whole
      have stands := Disk.find?_of_inspectLink sound.named_next sound.free_next link
      obtain ⟨inside, outward⟩ := refuses _ _ ⟨more, onward⟩ stands
      rw [List.dropLast_concat, held inside] at outward
      cases outward

/-- Where a path descends and every link is refused, the only answer is the location that it names,
and no link stands on the way there. -/
theorem eq_of_descent? {location : Location} (descends : boundary.descent? path = some location)
    (refuses : boundary.RefusesLinks disk location)
    (valid : boundary.validate disk path = .ok place) :
    place = location ∧ disk.LinkFree place := by
  obtain ⟨_, links, missing, _, reached⟩ := reaches_of_validate valid
  obtain ⟨left, none, whole, gone⟩ := reached.descends (sound_start path) refuses
    (steps_of_descent? descends) (List.nil_append location) nofun
  cases left with
  | nil =>
      have same : place = location := by simpa using whole
      refine ⟨same, ?_⟩
      cases missing with
      | true => exact same ▸ gone rfl
      | false => exact (reached.sound (sound_start path)).free rfl
  | cons name rest => cases none

/-- A path that descends, with every link on the way refused, looks at nothing but what is on the way
to the location that it names. -/
theorem keepsTo_of_descent? {among : Location → Prop} {location : Location}
    (descends : boundary.descent? path = some location)
    (refuses : boundary.RefusesLinks disk location)
    (known : ∀ top, top <+: location → among top) : boundary.KeepsTo disk path among := by
  constructor
  · intro links here name rest _ reached
    obtain ⟨left, steps, whole, _⟩ := reached.descends (sound_start path) refuses
      (steps_of_descent? descends) (List.nil_append location) nofun
    cases left with
    | nil => cases steps
    | cons first more =>
        cases (List.cons.inj steps).1
        exact known _ ⟨more, by simpa using whole⟩
  · intro place valid
    obtain ⟨same, free⟩ := eq_of_descent? descends refuses valid
    exact ⟨same ▸ known location List.prefix_rfl, free⟩

theorem grounded_of_descent? {location : Location} (descends : boundary.descent? path = some location)
    (overlaps : location.Overlaps boundary.root) (refuses : boundary.RefusesLinks disk location) :
    boundary.Grounded disk path := by
  have keeps := keepsTo_of_descent? descends refuses fun _ within => overlaps.above within
  exact ⟨keeps.looks, fun place valid => (keeps.answers place valid).2⟩

end SourceBaseline.Boundary
