import SourceBaseline.Proofs.Boundary.Run
import SourceBaseline.Proofs.Disk.Fitting
import SourceBaseline.Proofs.Path

/-!
# Entries that stand where they are named

What stands somewhere stands in directories, so no link is on the way there. The boundary then finds
the place by its own path, provided that the path is not too long to be looked up.
-/

set_option autoImplicit false

namespace SourceBaseline

namespace Location

theorem exists_text_path_concat (directory : Location) (name : String) :
    ∃ rest, (Location.path (directory ++ [name])).text = (Location.path directory).text ++ rest := by
  by_cases top : directory = []
  · exact ⟨name, by simp [top, Location.path]⟩
  · refine ⟨"/" ++ name, ?_⟩
    simp [Location.path, String.intercalate_append_of_ne_nil top, String.append_assoc]

theorem Fits.above {location top : Location} (fits : location.Fits) (within : top <+: location) :
    top.Fits := by
  obtain ⟨rest, rfl⟩ := within
  induction rest using List.reverseRecOn with
  | nil => exact List.append_nil top ▸ fits
  | append_singleton more name ih =>
      apply ih
      rw [← List.append_assoc] at fits
      obtain ⟨clean, short⟩ := fits
      obtain ⟨rest, text⟩ := exists_text_path_concat (top ++ more) name
      rw [Disk.checkPath_eq_ok_iff, text, String.toList_append, String.utf8ByteSize_append] at clean
      obtain ⟨plain, _, room⟩ := clean
      refine ⟨Disk.checkPath_eq_ok_iff.2 ⟨?_, by simp [Location.path], by omega⟩, ?_⟩
      · exact fun member => plain (List.mem_append_left _ member)
      · exact fun other member => short other (List.mem_append_left _ member)

end Location

namespace Disk

variable {disk : Disk} {location : Location} {entry : Entry}

theorem directory_of_above {top : Location} (stands : disk.find? location = some entry)
    (within : top <+: location) (proper : top ≠ location) : disk.find? top = some .directory := by
  obtain ⟨rest, rfl⟩ := within
  apply Classical.byContradiction
  intro leaf
  rw [find?_below_leaf leaf (by simpa using proper)] at stands
  cases stands

theorem linkFree_dropLast_of_stands (stands : disk.find? location = some entry) :
    disk.LinkFree location.dropLast := by
  intro top target within
  by_cases empty : location = []
  · subst empty
    exact linkFree_nil top target within
  · have shorter := within.length_le
    have proper : top ≠ location := by
      rintro rfl
      have size := List.length_pos_iff.2 empty
      rw [List.length_dropLast] at shorter
      omega
    rw [directory_of_above stands (within.trans (List.dropLast_prefix location)) proper]
    exact nofun

theorem linkFree_of_stands (stands : disk.find? location = some entry) (noLink : entry.isLink = false) :
    disk.LinkFree location := by
  intro top target within link
  by_cases same : top = location
  · subst same
    cases stands.symm.trans link
    cases noLink
  · cases (directory_of_above stands within same).symm.trans link

/-- What stands somewhere is looked up by its own path just if that fits. -/
theorem inspectLink_eq_ok_iff (named : ∀ name ∈ location, IsName name)
    (stands : disk.find? location = some entry) :
    disk.inspectLink (Location.route location) = .ok entry ↔ location.Fits := by
  rw [inspectLink, locateLink_eq_descend named (linkFree_dropLast_of_stands stands)]
  constructor
  · intro inspected
    obtain ⟨place, located, _⟩ := bind_eq_ok_iff.1 inspected
    obtain ⟨_, clean, descended⟩ := bind_eq_ok_iff.1 located
    exact ⟨clean, names_of_descend descended⟩
  · intro fits
    have descended : descend disk.find? [] location = .ok location :=
      descend_of_stands fits.names (by simpa using stands)
    simp only [fits.path, descended, bind, Except.bind, stands]

theorem inspect_of_stands (named : ∀ name ∈ location, IsName name)
    (stands : disk.find? location = some entry) (noLink : entry.isLink = false)
    (fits : location.Fits) : disk.inspect (Location.route location) = .ok entry := by
  have descended : descend disk.find? [] location = .ok location :=
    descend_of_stands fits.names (by simpa using stands)
  rw [inspect, locate_eq_descend named (linkFree_of_stands stands noLink)]
  simp only [fits.path, descended, bind, Except.bind, stands]

theorem isLink_eq_false (stands : disk.find? location = some entry)
    (noLink : ∀ target, disk.find? location ≠ some (.link target)) : entry.isLink = false := by
  cases entry with
  | link target => exact absurd stands (noLink target)
  | file content age => rfl
  | directory => rfl

/-- What stands behind no link is present just if its path can be looked up. -/
theorem isPresent_iff (named : ∀ name ∈ location, IsName name) (free : disk.LinkFree location) :
    disk.isPresent (Location.route location) = true ↔
      location.Fits ∧ ∃ entry, disk.find? location = some entry := by
  unfold isPresent
  split
  next entry found =>
    refine iff_of_true rfl ⟨?_, entry, find?_of_inspect named free found⟩
    obtain ⟨place, located, _⟩ := bind_eq_ok_iff.1 found
    rw [locate_eq_descend named free] at located
    obtain ⟨_, clean, descended⟩ := bind_eq_ok_iff.1 located
    exact ⟨clean, names_of_descend descended⟩
  next fault failed =>
    refine iff_of_false Bool.false_ne_true ?_
    rintro ⟨fits, entry, stands⟩
    have noLink := isLink_eq_false stands fun target => free location target List.prefix_rfl
    cases failed.symm.trans (inspect_of_stands named stands noLink fits)

end Disk

namespace Boundary

variable {boundary : Boundary} {disk : Disk} {location place : Location} {entry : Entry}

theorem proceed_root {onLink : Location → String → Path → List Component → Outcome Location}
    {missing : Bool} {here : Location} {rest : List Component} :
    proceed disk onLink missing here (.root :: rest) = proceed disk onLink missing here rest := by
  cases missing <;> simp only [proceed]

/-- The names that lead to what stands somewhere are entered one after another just if all of it
fits. -/
theorem proceed_eq_ok_iff {onLink : Location → String → Path → List Component → Outcome Location}
    (here : Location) {names : Location} (named : ∀ name ∈ here ++ names, IsName name)
    (stands : disk.find? (here ++ names) = some entry) (noLink : entry.isLink = false)
    (deeper : names ≠ []) :
    proceed disk onLink false here (names.map .name) = .ok place ↔
      place = here ++ names ∧ Location.Fits (here ++ names) := by
  induction names generalizing here with
  | nil => exact absurd rfl deeper
  | cons name rest ih =>
      rw [List.append_cons] at named stands ⊢
      have within : (here ++ [name]) <+: here ++ [name] ++ rest := List.prefix_append _ _
      have namedHere : ∀ other ∈ here ++ [name], IsName other :=
        fun other member => named other (within.subset member)
      have stood : ∃ found, disk.find? (here ++ [name]) = some found ∧ found.isLink = false := by
        by_cases last : rest = []
        · subst last
          exact ⟨entry, by simpa using stands, noLink⟩
        · exact ⟨.directory, Disk.directory_of_above stands within (by simpa using last), rfl⟩
      obtain ⟨found, standsHere, noLinkHere⟩ := stood
      have fits := Disk.inspectLink_eq_ok_iff namedHere standsHere
      -- What fits also fits at every name on the way, so each of them is looked up.
      have refused : disk.inspectLink (Location.route (here ++ [name])) ≠ .ok found →
          ¬ (place = here ++ [name] ++ rest ∧ Location.Fits (here ++ [name] ++ rest)) :=
        fun unread both => unread (fits.2 (both.2.above within))
      rw [List.map_cons, proceed]
      split
      next absent =>
        rw [Disk.find?_of_inspectLink_notFound namedHere
          (Disk.linkFree_dropLast_of_stands standsHere) absent] at standsHere
        cases standsHere
      next fault _ failed => exact iff_of_false (by simp) (refused (by simp [failed]))
      next target link =>
        rw [Disk.find?_of_inspectLink namedHere
          (Disk.linkFree_dropLast_of_stands standsHere) link] at standsHere
        cases standsHere
        cases noLinkHere
      next other _ inspected =>
        have same := Disk.find?_of_inspectLink namedHere
          (Disk.linkFree_dropLast_of_stands standsHere) inspected
        cases standsHere.symm.trans same
        by_cases last : rest = []
        · subst last
          simp [proceed, eq_comm, fits.1 inspected]
        · exact ih (here ++ [name]) named stands last

/-- The boundary finds what stands inside the root, and is no link, by its own path just if that
fits. -/
theorem validate_eq_ok_iff (named : ∀ name ∈ location, IsName name)
    (stands : disk.find? location = some entry) (noLink : entry.isLink = false)
    (inside : boundary.root <+: location) (inner : location ≠ []) :
    boundary.validate disk (Location.path location) = .ok place ↔
      place = location ∧ location.Fits := by
  have resolved : ∀ shown, boundary.resolve disk shown boundary.linkBudget []
        (.root :: location.map .name) = .ok place ↔ place = location ∧ location.Fits := by
    intro shown
    cases boundary.linkBudget with
    | zero =>
        rw [resolve, proceed_root]
        exact proceed_eq_ok_iff [] named stands noLink inner
    | succ budget =>
        rw [resolve, proceed_root]
        exact proceed_eq_ok_iff [] named stands noLink inner
  unfold validate
  simp only [Location.isAbsolute_path, if_true, Location.components_path named]
  constructor
  · intro valid
    obtain ⟨found, reached, checked⟩ := bind_eq_ok_iff.1 valid
    split at checked
    next =>
      cases checked
      exact (resolved _).1 reached
    next => cases checked
  · intro fits
    rw [(resolved _).2 fits]
    obtain ⟨rfl, _⟩ := fits
    exact if_pos (List.isPrefixOf_iff_prefix.2 inside)

end Boundary

end SourceBaseline
