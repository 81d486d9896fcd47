import Mathlib.Data.List.Induction
import SourceBaseline.Disk.Change
import SourceBaseline.Proofs.Disk.Straight
import SourceBaseline.Proofs.Path

/-!
# Changes behind no link

Under a directory that no link stands on the way to, every change is made at the very location that
its route names. `Becomes` says that one location came to hold something and all others stayed as
they were; the directories that `ensureDirectory` adds are told by `Grows`.
-/

set_option autoImplicit false

namespace SourceBaseline

theorem Location.bareNames_route {location : Location} (named : ∀ name ∈ location, IsName name) :
    (Location.route location).bareNames = location := by
  rw [Route.bareNames, if_neg]
  · rfl
  · intro special
    exact (named "." (List.mem_of_getLast? special.2)).notHere rfl

theorem Location.ancestors_concat (directory : Location) (name : String) :
    Location.ancestors (directory ++ [name]) = (directory ++ [name]) :: Location.ancestors directory := by
  induction directory with
  | nil => rfl
  | cons first rest ih => simp [Location.ancestors, ih]

namespace Disk

variable {disk after : Disk} {directory : Location} {name : String}

/-- The location came to hold what is said, and all others stayed as they were. -/
def Becomes (disk : Disk) (place : Location) (value : Option Entry) (after : Disk) : Prop :=
  ∀ location, after.find? location = if location = place then value else disk.find? location

/-- Go down to a directory, where `look` tells what stands at a location. -/
def enter (look : Location → Option Entry) (directory : Location) : Except Fault Unit := do
  let reached ← descend look [] directory
  if look reached = some .directory then .ok () else .error .notDirectory

/-- Go down to a directory in which a name is to be changed. -/
def approach (look : Location → Option Entry) (directory : Location) (name : String) :
    Except Fault Unit := do
  checkPath (Location.path (directory ++ [name]))
  enter look directory

theorem enter_congr {look other : Location → Option Entry}
    (same : ∀ top, top <+: directory → look top = other top) :
    enter look directory = enter other directory := by
  have descent : descend look [] directory = descend other [] directory := by
    apply descend_congr
    intro top within _
    simpa using same top within
  unfold enter
  rw [descent]
  cases descended : descend other [] directory with
  | error fault => rfl
  | ok reached =>
      have place := eq_of_descend descended
      rw [List.nil_append] at place
      subst place
      simp only [bind, Except.bind, same reached List.prefix_rfl]

theorem approach_congr {look other : Location → Option Entry}
    (same : ∀ top, top <+: directory → look top = other top) :
    approach look directory name = approach other directory name := by
  unfold approach
  rw [enter_congr same]

/-! ## One entry -/

theorem becomes_of_put {entry : Entry} (ready : disk.find? directory = some .directory)
    (free : disk.find? (directory ++ [name]) ≠ some .directory) :
    disk.Becomes (directory ++ [name]) (some entry) (disk.put directory name entry) :=
  find?_put ready free

theorem becomes_of_place {entry : Entry} (placed : disk.place directory name entry = .ok after) :
    disk.find? directory = some .directory ∧
      disk.find? (directory ++ [name]) ≠ some .directory ∧
      disk.Becomes (directory ++ [name]) (some entry) after := by
  rw [place] at placed
  split at placed
  next => cases placed
  next =>
    split at placed
    next ready =>
      split at placed
      next => cases placed
      next free =>
        cases placed
        have ready : disk.find? directory = some .directory := by simpa [isDirectoryAt] using ready
        have free : disk.find? (directory ++ [name]) ≠ some .directory := by
          simpa [isDirectoryAt] using free
        exact ⟨ready, free, becomes_of_put ready free⟩
    next => cases placed

theorem becomes_of_create {entry : Entry} (created : disk.create (directory, name) entry = .ok after) :
    disk.find? directory = some .directory ∧ disk.find? (directory ++ [name]) = none ∧
      disk.Becomes (directory ++ [name]) (some entry) after := by
  rw [create] at created
  split at created
  next => cases created
  next free =>
    obtain ⟨ready, _, becomes⟩ := becomes_of_place created
    exact ⟨ready, free, becomes⟩

theorem becomes_of_unlink {location : Location} (unlinked : disk.unlink location = .ok after) :
    (∃ entry, disk.find? location = some entry ∧ entry ≠ .directory) ∧
      disk.Becomes location none after := by
  rw [unlink] at unlinked
  split at unlinked
  next => cases unlinked
  next => cases unlinked
  next entry leaf found =>
    cases unlinked
    have leaf : entry ≠ .directory := leaf
    refine ⟨⟨entry, found, leaf⟩, ?_⟩
    intro place
    have inner : location ≠ [] := by
      intro top
      subst top
      cases found
      exact leaf rfl
    by_cases top : place = []
    · subst top
      rw [if_neg (Ne.symm inner)]
      rfl
    · rw [find?_remove place top]
      split
      next within =>
        obtain ⟨rest, rfl⟩ := List.isPrefixOf_iff_prefix.1 within
        split
        next => rfl
        next deeper =>
          rw [find?_below_leaf (by simpa [found] using leaf) (by simpa using deeper)]
      next outside =>
        rw [if_neg]
        intro same
        subst same
        simp [Location.isWithin] at outside

/-! ## Changes by route -/

section Routes

variable (named : ∀ other ∈ directory ++ [name], IsName other) (free : disk.LinkFree directory)

include named free

theorem slotFrom_eq_enter (special : Fault) :
    disk.slotFrom special linkLimit disk.start (directory ++ [name]) =
      (enter disk.find? directory).map fun _ => ((directory, name), linkLimit) := by
  have isName : IsName name := named name (by simp)
  have walked : disk.walkTo true linkLimit disk.start (directory ++ [name]).dropLast =
      (descend disk.find? [] directory).map fun place => (place, linkLimit) := by
    rw [List.dropLast_concat]
    apply walkTo_eq_descend .top fun other member => named other (by simp [member])
    intro top target within _ _
    exact free top target within
  unfold slotFrom enter
  simp only [List.getLast?_concat, walked]
  cases descended : descend disk.find? [] directory with
  | error fault => rfl
  | ok reached =>
      have same := eq_of_descend descended
      rw [List.nil_append] at same
      subst same
      by_cases ready : disk.find? reached = some .directory
      · simp [bind, Except.bind, Except.map, isDirectoryAt, ready, isName.notHere, isName.notUp]
      · simp [bind, Except.bind, Except.map, isDirectoryAt, ready]

theorem slot_eq_approach (special : Fault) :
    disk.slot special (Location.route (directory ++ [name])) =
      (approach disk.find? directory name).map fun _ => (directory, name) := by
  unfold slot approach
  simp only [Location.route, slotFrom_eq_enter named free]
  cases checkPath (Location.path (directory ++ [name])) with
  | error fault => rfl
  | ok _ => cases enter disk.find? directory <;> rfl

theorem createFile_eq (content : ByteArray) :
    disk.createFile (Location.route (directory ++ [name])) content = (do
      approach disk.find? directory name
      disk.create (directory, name) (.file content 0)) := by
  rw [createFile, slot_eq_approach named free]
  cases approach disk.find? directory name <;> rfl

theorem createDirectory_eq :
    disk.createDirectory (Location.route (directory ++ [name])) = (do
      approach disk.find? directory name
      disk.create (directory, name) .directory) := by
  have route : { Location.route (directory ++ [name]) with
      names := (Location.route (directory ++ [name])).bareNames } =
      Location.route (directory ++ [name]) := by
    rw [Location.bareNames_route named]
    rfl
  rw [createDirectory, route, slot_eq_approach named free]
  cases approach disk.find? directory name <;> rfl

theorem removeFile_eq :
    disk.removeFile (Location.route (directory ++ [name])) = (do
      approach disk.find? directory name
      disk.unlink (directory ++ [name])) := by
  rw [removeFile, slot_eq_approach named free]
  cases approach disk.find? directory name <;> rfl

theorem write_eq (noLink : ∀ target, disk.find? (directory ++ [name]) ≠ some (.link target))
    (content : ByteArray) :
    disk.write (Location.route (directory ++ [name])) content = (do
      approach disk.find? directory name
      disk.place directory name (.file content 0)) := by
  have separator := @Location.not_endsInSeparator directory name (named name (by simp))
  have written : ∀ onLink,
      disk.writeAt content onLink linkLimit disk.start (Location.route (directory ++ [name])) = (do
        enter disk.find? directory
        disk.place directory name (.file content 0)) := by
    intro onLink
    rw [writeAt, Location.bareNames_route named, slotFrom_eq_enter named free]
    cases enter disk.find? directory with
    | error fault => rfl
    | ok _ =>
        simp only [bind, Except.bind, Except.map, Location.route, separator]
        split
        next ends => cases ends
        next =>
          split
          next target _ link _ => exact absurd link (noLink target)
          next target link _ => exact absurd link (noLink target)
          next => rfl
  have unfolded : disk.write (Location.route (directory ++ [name])) content = (do
      checkPath (Location.path (directory ++ [name]))
      disk.writeAt content _ linkLimit disk.start (Location.route (directory ++ [name]))) := rfl
  rw [unfolded, written, approach]
  cases checkPath (Location.path (directory ++ [name])) <;> rfl

theorem rename_eq {newName : String} (isName : IsName newName) :
    disk.rename (Location.route (directory ++ [name])) (Location.route (directory ++ [newName])) =
      (do
        approach disk.find? directory name
        approach disk.find? directory newName
        match disk.find? (directory ++ [name]) with
        | none => .error .notFound
        | some .directory => .error .isDirectory
        | some entry =>
            if nameLimit < newName.utf8ByteSize then .error .nameTooLong
            else if name = newName then .ok disk
            else
              let placed ← disk.place directory newName entry
              placed.unlink (directory ++ [name])) := by
  have newNamed : ∀ other ∈ directory ++ [newName], IsName other := by
    intro other member
    rcases List.mem_append.1 member with before | last
    · exact named other (by simp [before])
    · have same : other = newName := by simpa using last
      exact same ▸ isName
  have route : { Location.route (directory ++ [newName]) with
      names := (Location.route (directory ++ [newName])).bareNames } =
      Location.route (directory ++ [newName]) := by
    rw [Location.bareNames_route newNamed]
    rfl
  have separator := @Location.not_endsInSeparator directory newName isName
  rw [rename, route, slot_eq_approach named free, slot_eq_approach newNamed free]
  cases approach disk.find? directory name with
  | error fault => rfl
  | ok _ =>
      cases approach disk.find? directory newName with
      | error fault => rfl
      | ok _ =>
          simp only [bind, Except.bind, Except.map, Location.route, separator]
          cases disk.find? (directory ++ [name]) with
          | none => rfl
          | some entry => cases entry <;> simp

theorem becomes_of_createFile {content : ByteArray}
    (created : disk.createFile (Location.route (directory ++ [name])) content = .ok after) :
    disk.find? (directory ++ [name]) = none ∧
      disk.Becomes (directory ++ [name]) (some (.file content 0)) after := by
  rw [createFile_eq named free] at created
  obtain ⟨_, _, created⟩ := bind_eq_ok_iff.1 created
  exact (becomes_of_create created).2

theorem becomes_of_createDirectory
    (created : disk.createDirectory (Location.route (directory ++ [name])) = .ok after) :
    disk.find? (directory ++ [name]) = none ∧
      disk.Becomes (directory ++ [name]) (some .directory) after := by
  rw [createDirectory_eq named free] at created
  obtain ⟨_, _, created⟩ := bind_eq_ok_iff.1 created
  exact (becomes_of_create created).2

theorem becomes_of_removeFile
    (removed : disk.removeFile (Location.route (directory ++ [name])) = .ok after) :
    disk.Becomes (directory ++ [name]) none after := by
  rw [removeFile_eq named free] at removed
  obtain ⟨_, _, removed⟩ := bind_eq_ok_iff.1 removed
  exact (becomes_of_unlink removed).2

theorem find?_of_rename {newName : String} (isName : IsName newName)
    (renamed : disk.rename (Location.route (directory ++ [name]))
      (Location.route (directory ++ [newName])) = .ok after) :
    ∃ entry, disk.find? (directory ++ [name]) = some entry ∧ ∀ location,
      after.find? location =
        if location = directory ++ [newName] then some entry
        else if location = directory ++ [name] then none
        else disk.find? location := by
  rw [rename_eq named free isName] at renamed
  obtain ⟨_, _, ready⟩ := bind_eq_ok_iff.1 renamed
  obtain ⟨_, _, moved⟩ := bind_eq_ok_iff.1 ready
  clear renamed ready
  split at moved
  next => cases moved
  next => cases moved
  next entry _ stands =>
    refine ⟨entry, stands, ?_⟩
    intro location
    split at moved
    next => cases moved
    next =>
      split at moved
      next same =>
        subst same
        cases moved
        split
        next here => rw [here, stands]
        next => rfl
      next different =>
        obtain ⟨placed, added, unlinked⟩ := bind_eq_ok_iff.1 moved
        obtain ⟨_, _, becomes⟩ := becomes_of_place added
        rw [(becomes_of_unlink unlinked).2 location, becomes location]
        by_cases new : location = directory ++ [newName]
        · have old : location ≠ directory ++ [name] := by
            rw [new]
            intro same
            exact different (by simpa using same.symm)
          rw [if_neg old]
          simp [new]
        · simp [new]

end Routes

theorem becomes_of_write {place : Location} {content : ByteArray}
    (named : ∀ name ∈ place, IsName name) (free : disk.LinkFree place)
    (written : disk.write (Location.route place) content = .ok after) :
    disk.Becomes place (some (.file content 0)) after := by
  rcases List.eq_nil_or_concat place with top | ⟨directory, name, split⟩
  · subst top
    have refused : disk.write (Location.route []) content = .error .isDirectory := rfl
    rw [refused] at written
    cases written
  · rw [List.concat_eq_append] at split
    subst split
    have noLink : ∀ target, disk.find? (directory ++ [name]) ≠ some (.link target) :=
      fun target => free _ target List.prefix_rfl
    rw [write_eq named (free.above (List.prefix_append _ _)) noLink] at written
    obtain ⟨_, _, placed⟩ := bind_eq_ok_iff.1 written
    exact (becomes_of_place placed).2.2

/-! ## Directories -/

/-- Directories came to stand on the way to a location where nothing stood before, and nothing else
changed. -/
def Grows (disk : Disk) (top : Location) (after : Disk) : Prop :=
  ∀ location, after.find? location = disk.find? location ∨
    (location <+: top ∧ disk.find? location = none ∧ after.find? location = some .directory)

theorem Grows.refl (disk : Disk) (top : Location) : disk.Grows top disk :=
  fun _ => .inl rfl

theorem Grows.createDirectory {before : Disk} (named : ∀ other ∈ directory ++ [name], IsName other)
    (free : disk.LinkFree directory) (grown : before.Grows directory disk)
    (created : disk.createDirectory (Location.route (directory ++ [name])) = .ok after) :
    before.Grows (directory ++ [name]) after := by
  obtain ⟨absent, becomes⟩ := becomes_of_createDirectory named free created
  intro location
  rw [becomes location]
  split
  next here =>
    subst here
    rcases grown (directory ++ [name]) with same | ⟨_, missing, _⟩
    · exact .inr ⟨List.prefix_rfl, same ▸ absent, rfl⟩
    · exact .inr ⟨List.prefix_rfl, missing, rfl⟩
  next =>
    rcases grown location with same | ⟨within, missing, stands⟩
    · exact .inl same
    · exact .inr ⟨within.trans (List.prefix_append _ _), missing, stands⟩

theorem Grows.linkFree {top place : Location} (grown : disk.Grows top after)
    (free : disk.LinkFree place) : after.LinkFree place := by
  intro higher target within
  rcases grown higher with same | ⟨_, _, stands⟩
  · rw [same]
    exact free higher target within
  · rw [stands]
    exact nofun

theorem Grows.below {top rest : Location} (grown : disk.Grows top after) :
    disk.Grows (top ++ rest) after := by
  intro location
  rcases grown location with same | ⟨within, missing, stands⟩
  · exact .inl same
  · exact .inr ⟨within.trans (List.prefix_append _ _), missing, stands⟩

theorem grows_of_ensureDirectory {top : Location} (named : ∀ name ∈ top, IsName name)
    (free : disk.LinkFree top) :
    disk.Grows top (disk.ensureDirectory ((Location.ancestors top).map Location.route)).2 := by
  induction top using List.reverseRecOn generalizing disk with
  | nil =>
      have refused : disk.createDirectory (Location.route []) = .error .exists := rfl
      simp only [Location.ancestors, List.map_cons, ensureDirectory, refused]
      split <;> exact .refl _ _
  | append_singleton directory name ih =>
      have above : ∀ other ∈ directory, IsName other := Location.named_above named
      have freeAbove : disk.LinkFree directory := free.above (List.prefix_append _ _)
      rw [Location.ancestors_concat, List.map_cons, ensureDirectory]
      split
      next => exact .refl _ _
      next =>
        dsimp only
        split
        next created made => exact (Grows.refl disk directory).createDirectory named freeAbove made
        next =>
          have grown := ih above freeAbove
          split
          next fault changed ensured =>
            rw [ensured] at grown
            exact grown.below
          next changed ensured =>
            rw [ensured] at grown
            split
            next created made =>
              exact grown.createDirectory named (grown.linkFree freeAbove) made
            next => exact grown.below
        next => exact .refl _ _

end Disk

end SourceBaseline
