import SourceBaseline.Proofs.Disk.Ways

/-!
# Changes in one slot

A route that ends in a name leads to a slot, a name in a directory. What a change comes to is decided by
what stands there. Where neither a directory nor a link stands in the slot, no way leads through it, and
so a change in it leaves every way as it was.
-/

set_option autoImplicit false

namespace SourceBaseline

namespace Disk

variable {disk after : Disk} {route newRoute : Route} {parent newParent : Location} {name newName : String}
  {special : Fault} {content : ByteArray} {entry : Entry}

/-- Ways do not lead through a slot with a file in it. -/
theorem keepsWays_of_becomes {value : Option Entry} (found : disk.slot special route = .ok (parent, name))
    (leaf : disk.find? (parent ++ [name]) ≠ some .directory)
    (solid : ∀ target, disk.find? (parent ++ [name]) ≠ some (.link target))
    (becomes : disk.Becomes (parent ++ [name]) value after) : disk.KeepsWays after := by
  obtain ⟨_, _, _, _, plain⟩ := leads_of_slot found
  refine becomes.keepsWays fun entry stands => ?_
  cases entry with
  | directory => exact absurd stands leaf
  | link target => exact absurd stands (solid target)
  | file content age =>
      refine ⟨by simp, fun here last same => ?_⟩
      obtain ⟨rfl, rfl⟩ : parent = here ∧ name = last := by simpa using same
      exact not_leadsToDirectory_of_file stands plain

theorem slot_of_slot {other : Fault} (found : disk.slot special route = .ok (parent, name)) :
    disk.slot other route = .ok (parent, name) :=
  KeepsWays.slot ⟨fun _ stands => stands, fun _ _ _ stands _ => stands⟩ found

theorem createFile_of_stands (found : disk.slot .exists route = .ok (parent, name))
    (stands : disk.find? (parent ++ [name]) = some entry) :
    disk.createFile route content = .error .exists := by
  unfold createFile create
  rw [found]
  simp only [bind, Except.bind, stands]

theorem place_of_free {directory : Location} (ready : disk.find? directory = some .directory)
    (free : disk.find? (directory ++ [name]) ≠ some .directory) (short : name.utf8ByteSize ≤ nameLimit) :
    disk.place directory name entry = .ok (disk.put directory name entry) := by
  rw [place, if_neg (Nat.not_lt.2 short), isDirectoryAt, isDirectoryAt, if_pos (by simpa using ready),
    if_neg (by simpa using free)]

theorem createFile_of_free (found : disk.slot .exists route = .ok (parent, name))
    (short : name.utf8ByteSize ≤ nameLimit) (free : disk.find? (parent ++ [name]) = none) :
    ∃ after, disk.createFile route content = .ok after ∧
      disk.Becomes (parent ++ [name]) (some (.file content 0)) after := by
  obtain ⟨_, _, _, ready, _⟩ := leads_of_slot found
  have leaf : disk.find? (parent ++ [name]) ≠ some .directory := by simp [free]
  refine ⟨disk.put parent name (.file content 0), ?_, becomes_of_put ready leaf⟩
  unfold createFile create
  rw [found]
  simp only [bind, Except.bind, free]
  exact place_of_free ready leaf short

theorem createFile_of_long (found : disk.slot .exists route = .ok (parent, name))
    (long : nameLimit < name.utf8ByteSize) (free : disk.find? (parent ++ [name]) = none) :
    disk.createFile route content = .error .nameTooLong := by
  unfold createFile create place
  rw [found]
  simp only [bind, Except.bind, free, if_pos long]

theorem unlink_of_stands {location : Location} (stands : disk.find? location = some entry)
    (leaf : entry ≠ .directory) : disk.unlink location = .ok (disk.remove location) := by
  rw [unlink, stands]
  cases entry with
  | directory => exact absurd rfl leaf
  | file => rfl
  | link => rfl

theorem removeFile_of_stands (found : disk.slot .isDirectory route = .ok (parent, name))
    (stands : disk.find? (parent ++ [name]) = some entry) (leaf : entry ≠ .directory) :
    ∃ after, disk.removeFile route = .ok after ∧ disk.Becomes (parent ++ [name]) none after := by
  have unlinked := unlink_of_stands stands leaf
  refine ⟨_, ?_, (becomes_of_unlink unlinked).2⟩
  unfold removeFile
  rw [found]
  exact unlinked

theorem exists_rename (found : disk.slot .busy route = .ok (parent, name))
    (newFound : disk.slot .busy newRoute = .ok (newParent, newName))
    (bare : newRoute.path.endsInSeparator = false) (short : newName.utf8ByteSize ≤ nameLimit)
    (stands : disk.find? (parent ++ [name]) = some entry) (leaf : entry ≠ .directory)
    (free : disk.find? (newParent ++ [newName]) = none) :
    ∃ after, disk.rename route newRoute = .ok after ∧ ∀ location, after.find? location =
      if location = newParent ++ [newName] then some entry
      else if location = parent ++ [name] then none
      else disk.find? location := by
  obtain ⟨_, _, _, ready, _⟩ := leads_of_slot newFound
  have noDirectory : disk.find? (newParent ++ [newName]) ≠ some .directory := by simp [free]
  have distinct : parent ++ [name] ≠ newParent ++ [newName] := by
    intro same
    rw [same, free] at stands
    cases stands
  have placed : disk.place newParent newName entry = .ok (disk.put newParent newName entry) :=
    place_of_free ready noDirectory short
  have becomes := @becomes_of_put disk newParent newName entry ready noDirectory
  have still : (disk.put newParent newName entry).find? (parent ++ [name]) = some entry := by
    rw [becomes, if_neg distinct, stands]
  have unlinked := unlink_of_stands still leaf
  have sameRoute : { newRoute with names := newRoute.bareNames } = newRoute := by
    simp [Route.bareNames, bare]
  refine ⟨(disk.put newParent newName entry).remove (parent ++ [name]), ?_, fun location => ?_⟩
  · unfold rename
    rw [sameRoute, found, newFound]
    simp only [bind, Except.bind, stands]
    rw [if_neg (Nat.not_lt.2 short), if_neg (by simp [bare]), if_neg distinct, placed]
    exact unlinked
  · rw [(becomes_of_unlink unlinked).2 location, becomes location]
    by_cases new : location = newParent ++ [newName]
    · rw [if_pos new, if_pos new, if_neg (new ▸ Ne.symm distinct)]
    · rw [if_neg new, if_neg new]

end Disk

end SourceBaseline
