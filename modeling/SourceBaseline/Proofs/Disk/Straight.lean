import SourceBaseline.Disk.Resolution

/-!
# Locations behind no link

Where no link stands on the way to a location, the disk looks the names up one after another and
ends at that location or fails. What it finds then depends on nothing but the entries on the way.
-/

set_option autoImplicit false

namespace SourceBaseline

theorem Location.mem_ancestors_iff {location top : Location} :
    top ∈ Location.ancestors location ↔ top <+: location := by
  induction location generalizing top with
  | nil => simp [Location.ancestors]
  | cons name rest ih =>
      cases top with
      | nil => simp [Location.ancestors]
      | cons first more =>
          simp only [Location.ancestors, List.mem_append, List.mem_map, List.cons.injEq,
            List.mem_singleton, List.cons_prefix_cons, ih]
          constructor
          · rintro (⟨_, within, rfl, rfl⟩ | impossible)
            · exact ⟨rfl, within⟩
            · cases impossible
          · rintro ⟨rfl, within⟩
            exact .inl ⟨more, within, rfl, rfl⟩

/-- Whether the entry is a link. -/
def Entry.isLink : Entry → Bool
  | .link _ => true
  | _ => false

namespace Disk

/-- No link stands at the location or on the way to it. -/
def LinkFree (disk : Disk) (location : Location) : Prop :=
  ∀ top target, top <+: location → disk.find? top ≠ some (.link target)

/-- Look names up one after another from a place, where `look` tells what stands at a location. -/
def descend (look : Location → Option Entry) : Location → List String → Except Fault Location
  | here, [] => .ok here
  | here, name :: rest =>
      if nameLimit < name.utf8ByteSize then .error .nameTooLong
      else
        match look (here ++ [name]) with
        | none => .error .notFound
        | some .directory => descend look (here ++ [name]) rest
        | some _ => if rest = [] then .ok (here ++ [name]) else .error .notDirectory

instance (disk : Disk) (location : Location) : Decidable (disk.LinkFree location) :=
  decidable_of_iff (∀ top ∈ Location.ancestors location, ¬ (disk.find? top).any Entry.isLink) (by
    constructor
    · intro none top target within link
      apply none top (Location.mem_ancestors_iff.2 within)
      rw [link]
      rfl
    · intro free top member link
      obtain ⟨entry, stands, isLink⟩ := (Option.any_eq_true _ _).1 link
      cases entry with
      | link target => exact free top target (Location.mem_ancestors_iff.1 member) stands
      | file content age => cases isLink
      | directory => cases isLink)

variable {disk : Disk}

theorem LinkFree.above {location top : Location} (free : disk.LinkFree location)
    (within : top <+: location) : disk.LinkFree top :=
  fun higher target above => free higher target (above.trans within)

theorem linkFree_nil : disk.LinkFree [] := by
  intro top target within
  rw [List.prefix_nil.1 within]
  exact nofun

theorem LinkFree.concat {here : Location} {name : String} (free : disk.LinkFree here)
    (noLink : ∀ target, disk.find? (here ++ [name]) ≠ some (.link target)) :
    disk.LinkFree (here ++ [name]) := by
  intro top target within
  rcases List.prefix_concat_iff.1 within with same | above
  · exact same ▸ noLink target
  · exact free top target above

theorem eq_of_descend {look : Location → Option Entry} {here place : Location} {names : List String}
    (found : descend look here names = .ok place) : place = here ++ names := by
  induction names generalizing here with
  | nil =>
      cases found
      simp
  | cons name rest ih =>
      rw [descend] at found
      split at found
      next => cases found
      next =>
        split at found
        next => cases found
        next => simpa using ih found
        next =>
          split at found
          next last =>
            cases found
            simp [last]
          next => cases found

theorem descend_congr {look other : Location → Option Entry} {here : Location} {names : List String}
    (same : ∀ top, top <+: names → top ≠ [] → look (here ++ top) = other (here ++ top)) :
    descend look here names = descend other here names := by
  induction names generalizing here with
  | nil => rfl
  | cons name rest ih =>
      have first : look (here ++ [name]) = other (here ++ [name]) :=
        same [name] (List.prefix_append [name] rest) (by simp)
      have later : descend look (here ++ [name]) rest = descend other (here ++ [name]) rest := by
        apply ih
        intro top within nonempty
        have deeper := same (name :: top) ((List.prefix_cons_inj name).2 within) (by simp)
        simpa using deeper
      rw [descend, descend, first, later]

theorem find?_of_descend_notFound {here : Location} {names : List String}
    (missing : descend disk.find? here names = .error .notFound) :
    disk.find? (here ++ names) = none := by
  induction names generalizing here with
  | nil => cases missing
  | cons name rest ih =>
      rw [descend] at missing
      split at missing
      next => cases missing
      next =>
        split at missing
        next absent =>
          by_cases last : rest = []
          · rw [last]
            exact absent
          · have below : disk.find? ((here ++ [name]) ++ rest) = none :=
              find?_below_leaf (by rw [absent]; exact nofun) last
            simpa using below
        next => simpa using ih missing
        next => split at missing <;> cases missing

/-- Where no link is met, a walk is a plain descent. The last name is looked at like the others
unless links in last place stay as they are. -/
theorem proceed_eq_descend {α : Type} {followLast : Bool} {onEnd : Location → α}
    {onLink : Cursor → List String → Except Fault α} {here : Cursor} {names : List String}
    (reached : Cursor.Reached disk.tree here) (named : ∀ name ∈ names, IsName name)
    (free : ∀ top target, top <+: names → top ≠ [] → (top = names → followLast = true) →
      disk.find? (here.location ++ top) ≠ some (.link target)) :
    disk.proceed followLast onEnd onLink here names =
      (descend disk.find? here.location names).map onEnd := by
  induction names generalizing here with
  | nil => rfl
  | cons name rest ih =>
      have isName := named name (.head _)
      have entry : disk.find? (here.location ++ [name]) = (here.tree.child? name).map Node.entry :=
        reached.standing? name
      rw [proceed, if_neg isName.notHere, if_neg isName.notUp, descend, entry]
      split
      next => rfl
      next =>
        cases child : here.tree.child? name with
        | none => rfl
        | some node =>
            rw [child] at entry
            cases node with
            | file content age =>
                by_cases last : rest = []
                · simp [last, Node.entry, Except.map]
                · simp [last, Node.entry, Except.map]
            | directory inner =>
                have below := ih (reached.down child) (fun other member => named other (.tail _ member))
                  (by
                    intro top target within nonempty atEnd
                    have deeper := free (name :: top) target ((List.prefix_cons_inj name).2 within)
                      (by simp) (by simpa using atEnd)
                    simpa [Cursor.location_down] using deeper)
                simpa [Cursor.location_down, Node.entry] using below
            | link target =>
                by_cases last : rest = []
                · subst last
                  cases followLast with
                  | false => simp [Node.entry, Except.map]
                  | true =>
                      exact absurd entry (free [name] target (List.prefix_rfl) (by simp) fun _ => rfl)
                · exact absurd entry
                    (free [name] target (List.prefix_append [name] rest) (by simp)
                      fun same => absurd (by simpa using same.symm) last)

theorem walkTo_eq_descend {followLast : Bool} {links : Nat} {here : Cursor} {names : List String}
    (reached : Cursor.Reached disk.tree here) (named : ∀ name ∈ names, IsName name)
    (free : ∀ top target, top <+: names → top ≠ [] → (top = names → followLast = true) →
      disk.find? (here.location ++ top) ≠ some (.link target)) :
    disk.walkTo followLast links here names =
      (descend disk.find? here.location names).map fun place => (place, links) := by
  cases links with
  | zero => exact proceed_eq_descend reached named free
  | succ links => exact proceed_eq_descend reached named free

section Routes

variable {location : Location}

private theorem bind_walk {checked : Except Fault Unit} {walk : Except Fault (Location × Nat)}
    {descent : Except Fault Location} (links : Nat)
    (walked : walk = descent.map fun place => (place, links)) :
    (do checked; pure (← walk).1) = (do checked; descent) := by
  subst walked
  cases checked with
  | error fault => rfl
  | ok _ => cases descent <;> rfl

/-- A location is followed without a surprise if no link stands on the way to it or, where links in
last place are followed, at the location itself. -/
theorem locate_eq_descend (named : ∀ name ∈ location, IsName name) (free : disk.LinkFree location) :
    disk.locate (Location.route location) = (do
      checkPath (Location.path location)
      descend disk.find? [] location) := by
  apply bind_walk linkLimit
  apply walkTo_eq_descend .top named
  intro top target within _ _
  exact free top target within

theorem locateLink_eq_descend (named : ∀ name ∈ location, IsName name)
    (free : disk.LinkFree location.dropLast) :
    disk.locateLink (Location.route location) = (do
      checkPath (Location.path location)
      descend disk.find? [] location) := by
  apply bind_walk linkLimit
  apply walkTo_eq_descend .top named
  intro top target within _ atEnd
  have proper : top ≠ location := fun same => nomatch atEnd same
  exact free top target (Location.prefix_dropLast within proper)

theorem eq_of_locate {place : Location} (named : ∀ name ∈ location, IsName name)
    (free : disk.LinkFree location) (found : disk.locate (Location.route location) = .ok place) :
    place = location := by
  rw [locate_eq_descend named free] at found
  obtain ⟨_, _, descended⟩ := bind_eq_ok_iff.1 found
  exact eq_of_descend descended

theorem checkPath_ne_notFound : checkPath (Location.path location) ≠ .error .notFound := by
  intro refused
  unfold checkPath checkNul checkSize at refused
  split at refused
  next => cases refused
  next =>
    have nonempty : (Location.path location).text ≠ "" := by
      intro empty
      have size := congrArg String.length empty
      simp [Location.path] at size
    simp only [bind, Except.bind, if_neg nonempty] at refused
    split at refused <;> cases refused

theorem find?_of_inspectLink {entry : Entry} (named : ∀ name ∈ location, IsName name)
    (free : disk.LinkFree location.dropLast)
    (found : disk.inspectLink (Location.route location) = .ok entry) :
    disk.find? location = some entry := by
  rw [inspectLink, locateLink_eq_descend named free] at found
  obtain ⟨place, located, looked⟩ := bind_eq_ok_iff.1 found
  obtain ⟨_, _, descended⟩ := bind_eq_ok_iff.1 located
  have same := eq_of_descend descended
  rw [List.nil_append] at same
  subst same
  split at looked
  next entry stands =>
    cases looked
    exact stands
  next => cases looked

theorem find?_of_inspect {entry : Entry} (named : ∀ name ∈ location, IsName name)
    (free : disk.LinkFree location) (found : disk.inspect (Location.route location) = .ok entry) :
    disk.find? location = some entry := by
  obtain ⟨place, located, looked⟩ := bind_eq_ok_iff.1 found
  obtain rfl := eq_of_locate named free located
  split at looked
  next entry stands =>
    cases looked
    exact stands
  next => cases looked

theorem find?_of_inspectLink_notFound (named : ∀ name ∈ location, IsName name)
    (free : disk.LinkFree location.dropLast)
    (missing : disk.inspectLink (Location.route location) = .error .notFound) :
    disk.find? location = none := by
  rw [inspectLink, locateLink_eq_descend named free] at missing
  cases clean : checkPath (Location.path location) with
  | error fault =>
      simp only [clean, bind, Except.bind] at missing
      cases missing
      exact absurd clean checkPath_ne_notFound
  | ok _ =>
      simp only [clean, bind, Except.bind] at missing
      cases descended : descend disk.find? [] location with
      | error fault =>
          simp only [descended] at missing
          cases missing
          simpa using find?_of_descend_notFound descended
      | ok place =>
          have same := eq_of_descend descended
          rw [List.nil_append] at same
          subst same
          simp only [descended] at missing
          split at missing
          next => cases missing
          next stands => exact stands

end Routes

/-! ## Disks that agree on the way -/

/-- The same stands on both disks at the location and on the way to it. -/
def AgreesTo (location : Location) (first second : Disk) : Prop :=
  ∀ top, top <+: location → first.find? top = second.find? top

namespace AgreesTo

variable {location : Location} {first second : Disk} (agrees : first.AgreesTo location second)

include agrees

theorem above {top : Location} (within : top <+: location) : first.AgreesTo top second :=
  fun higher before => agrees higher (before.trans within)

theorem linkFree (free : first.LinkFree location) : second.LinkFree location := by
  intro top target within
  rw [← agrees top within]
  exact free top target within

theorem descend : Disk.descend first.find? [] location = Disk.descend second.find? [] location :=
  descend_congr fun top within _ => agrees top within

theorem look :
    (Disk.descend first.find? [] location >>= fun place =>
      match first.find? place with
      | some entry => Except.ok entry
      | none => Except.error Fault.notFound) =
    (Disk.descend second.find? [] location >>= fun place =>
      match second.find? place with
      | some entry => Except.ok entry
      | none => Except.error Fault.notFound) := by
  rw [agrees.descend]
  cases descended : Disk.descend second.find? [] location with
  | error fault => rfl
  | ok place =>
      have same := eq_of_descend descended
      rw [List.nil_append] at same
      subst same
      simp only [bind, Except.bind, agrees place List.prefix_rfl]

theorem inspectLink (named : ∀ name ∈ location, IsName name)
    (free : first.LinkFree location.dropLast) :
    first.inspectLink (Location.route location) = second.inspectLink (Location.route location) := by
  have freeToo := (agrees.above (List.dropLast_prefix location)).linkFree free
  unfold Disk.inspectLink
  rw [locateLink_eq_descend named free, locateLink_eq_descend named freeToo]
  cases checkPath (Location.path location) with
  | error fault => rfl
  | ok _ => exact agrees.look

theorem inspect (named : ∀ name ∈ location, IsName name) (free : first.LinkFree location) :
    first.inspect (Location.route location) = second.inspect (Location.route location) := by
  unfold Disk.inspect
  rw [locate_eq_descend named free, locate_eq_descend named (agrees.linkFree free)]
  cases checkPath (Location.path location) with
  | error fault => rfl
  | ok _ => exact agrees.look

end AgreesTo

end Disk

end SourceBaseline
