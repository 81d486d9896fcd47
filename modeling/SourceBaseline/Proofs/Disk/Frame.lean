import SourceBaseline.Proofs.Disk.Alike

/-!
# Changes below the root

`ChangesBelow root` relates a disk to a later one in which only entries strictly below the root
differ and no link is new. Every change under a directory that the disk shelters is of this sort,
and the disk goes on sheltering the directory.
-/

set_option autoImplicit false

namespace SourceBaseline.Disk

/-- Only what lies strictly below the root differs, and no link is new. -/
structure ChangesBelow (root : Location) (before after : Disk) : Prop where
  unchanged : ∀ location, (root <+: location → location = root) →
    after.find? location = before.find? location
  noNewLink : ∀ location target, after.find? location = some (.link target) →
    before.find? location = some (.link target)

/-- The root stands, and a directory in it, as far as it exists, lies behind no link. -/
structure Shelters (disk : Disk) (root directory : Location) : Prop where
  named : ∀ name ∈ directory, IsName name
  within : root <+: directory
  free : disk.LinkFree directory
  stands : disk.find? root ≠ none

variable {root directory : Location} {disk before middle after : Disk} {name : String}

namespace ChangesBelow

theorem refl (root : Location) (disk : Disk) : ChangesBelow root disk disk :=
  ⟨fun _ _ => rfl, fun _ _ link => link⟩

theorem trans (first : ChangesBelow root before middle) (second : ChangesBelow root middle after) :
    ChangesBelow root before after := by
  refine ⟨?_, ?_⟩
  · intro location apart
    rw [second.unchanged location apart, first.unchanged location apart]
  · intro location target link
    exact first.noNewLink location target (second.noNewLink location target link)

theorem outside (changes : ChangesBelow root before after) {location : Location}
    (outside : location.isWithin root = false) : after.find? location = before.find? location := by
  apply changes.unchanged
  intro within
  rw [Location.isWithin, List.isPrefixOf_iff_prefix.2 within] at outside
  cases outside

theorem linkFree (changes : ChangesBelow root before after) {location : Location}
    (free : before.LinkFree location) : after.LinkFree location :=
  fun top target within link => free top target within (changes.noNewLink top target link)

theorem shelters (changes : ChangesBelow root before after)
    (shelters : before.Shelters root directory) : after.Shelters root directory := by
  refine ⟨shelters.named, shelters.within, changes.linkFree shelters.free, ?_⟩
  rw [changes.unchanged root fun _ => rfl]
  exact shelters.stands

theorem of_becomes {place : Location} {value : Option Entry}
    (becomes : before.Becomes place value after) (within : root <+: place) (inner : place ≠ root)
    (noLink : ∀ target, value ≠ some (.link target)) : ChangesBelow root before after := by
  refine ⟨?_, ?_⟩
  · intro location apart
    rw [becomes location, if_neg]
    intro same
    exact inner (same ▸ apart (same ▸ within))
  · intro location target link
    rw [becomes location] at link
    split at link
    next => exact absurd link (noLink target)
    next => exact link

theorem of_grows (stands : before.find? root ≠ none) (within : root <+: directory)
    (grown : before.Grows directory after) : ChangesBelow root before after := by
  refine ⟨?_, ?_⟩
  · intro location apart
    rcases grown location with same | ⟨above, missing, _⟩
    · exact same
    · rcases List.prefix_or_prefix_of_prefix above within with higher | deeper
      · obtain ⟨rest, split⟩ := higher
        by_cases last : rest = []
        · rw [last, List.append_nil] at split
          exact absurd (split ▸ missing) stands
        · have nothing : before.find? (location ++ rest) = none :=
            find?_below_leaf (by rw [missing]; exact nofun) last
          exact absurd (split ▸ nothing) stands
      · exact absurd (apart deeper ▸ missing) stands
  · intro location target link
    rcases grown location with same | ⟨_, _, directory⟩
    · exact same ▸ link
    · rw [directory] at link
      cases link

end ChangesBelow

namespace Shelters

variable (shelters : disk.Shelters root directory) (isName : IsName name)

include shelters

theorem inner : directory ++ [name] ≠ root := by
  intro same
  have shorter := shelters.within.length_le
  rw [← same, List.length_append] at shorter
  simp only [List.length_singleton] at shorter
  omega

theorem within_concat : root <+: directory ++ [name] :=
  shelters.within.trans (List.prefix_append _ _)

theorem changesBelow_ensureDirectory :
    ChangesBelow root disk
      (disk.ensureDirectory ((Location.ancestors directory).map Location.route)).2 :=
  .of_grows shelters.stands shelters.within
    (grows_of_ensureDirectory shelters.named shelters.free)

theorem alike {other : Disk} (alike : disk.Alike root other) : other.Shelters root directory := by
  refine ⟨shelters.named, shelters.within, alike.linkFree (.inr shelters.within) shelters.free, ?_⟩
  rw [← alike root (.inr List.prefix_rfl)]
  exact shelters.stands

include isName

theorem named_concat : ∀ other ∈ directory ++ [name], IsName other :=
  Location.named_concat shelters.named isName

theorem changesBelow_createFile {content : ByteArray}
    (created : disk.createFile (Location.route (directory ++ [name])) content = .ok after) :
    ChangesBelow root disk after := by
  obtain ⟨_, becomes⟩ :=
    becomes_of_createFile (shelters.named_concat isName) shelters.free created
  exact .of_becomes becomes shelters.within_concat shelters.inner fun _ => nofun

theorem changesBelow_removeFile
    (removed : disk.removeFile (Location.route (directory ++ [name])) = .ok after) :
    ChangesBelow root disk after := by
  have becomes := becomes_of_removeFile (shelters.named_concat isName) shelters.free removed
  exact .of_becomes becomes shelters.within_concat shelters.inner fun _ => nofun

theorem find?_of_rename {newName : String} (newIsName : IsName newName)
    (renamed : disk.rename (Location.route (directory ++ [name]))
      (Location.route (directory ++ [newName])) = .ok after) :
    ∃ entry, disk.find? (directory ++ [name]) = some entry ∧ ∀ location,
      after.find? location =
        if location = directory ++ [newName] then some entry
        else if location = directory ++ [name] then none
        else disk.find? location :=
  Disk.find?_of_rename (shelters.named_concat isName) shelters.free newIsName renamed

theorem linkFree_of_rename {newName : String} (newIsName : IsName newName)
    (renamed : disk.rename (Location.route (directory ++ [name]))
      (Location.route (directory ++ [newName])) = .ok after) : after.LinkFree directory := by
  obtain ⟨_, _, stands⟩ := shelters.find?_of_rename isName newIsName renamed
  intro top target within
  have shorter : ∀ {other : String}, top ≠ directory ++ [other] := by
    intro other same
    have length := within.length_le
    rw [same, List.length_append, List.length_singleton] at length
    omega
  rw [stands top, if_neg shorter, if_neg shorter]
  exact shelters.free top target within

theorem changesBelow_rename {newName : String} (newIsName : IsName newName)
    (noLink : ∀ target, disk.find? (directory ++ [name]) ≠ some (.link target))
    (renamed : disk.rename (Location.route (directory ++ [name]))
      (Location.route (directory ++ [newName])) = .ok after) : ChangesBelow root disk after := by
  obtain ⟨entry, stood, moved⟩ := shelters.find?_of_rename isName newIsName renamed
  refine ⟨?_, ?_⟩
  · intro location apart
    have different : ∀ {other : String}, location ≠ directory ++ [other] := by
      intro other same
      exact shelters.inner (same ▸ apart (same ▸ shelters.within_concat))
    rw [moved location, if_neg different, if_neg different]
  · intro location target link
    rw [moved location] at link
    split at link
    next => exact absurd (stood.trans link) (noLink target)
    next =>
      split at link
      next => cases link
      next => exact link

theorem changesBelow_rename_removeFile {newName : String} {moved : Disk} (newIsName : IsName newName)
    (renamed : disk.rename (Location.route (directory ++ [name]))
      (Location.route (directory ++ [newName])) = .ok moved)
    (removed : moved.removeFile (Location.route (directory ++ [newName])) = .ok after) :
    ChangesBelow root disk after := by
  obtain ⟨entry, _, stands⟩ := shelters.find?_of_rename isName newIsName renamed
  have freeThen := shelters.linkFree_of_rename isName newIsName renamed
  have gone := becomes_of_removeFile (shelters.named_concat newIsName) freeThen removed
  refine ⟨?_, ?_⟩
  · intro location apart
    have different : ∀ {other : String}, location ≠ directory ++ [other] := by
      intro other same
      exact shelters.inner (same ▸ apart (same ▸ shelters.within_concat))
    rw [gone location, if_neg different, stands location, if_neg different, if_neg different]
  · intro location target link
    rw [gone location] at link
    split at link
    next => cases link
    next apart =>
      rw [stands location, if_neg apart] at link
      split at link
      next => cases link
      next => exact link

end Shelters

end SourceBaseline.Disk
