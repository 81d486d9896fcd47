import SourceBaseline.Proofs.Disk.Frame

/-!
# Locations that fit

A location fits if neither its names nor its path are too long and its path holds no NUL. In a
directory that stands behind no link, what is done to a name that fits can fail for nothing but the
entries that stand there.
-/

set_option autoImplicit false

namespace SourceBaseline

/-- Neither the names nor the path are more than operations take. -/
structure Location.Fits (location : Location) : Prop where
  path : Disk.checkPath (Location.path location) = .ok ()
  names : ∀ name ∈ location, name.utf8ByteSize ≤ Disk.nameLimit

theorem Disk.checkPath_eq_ok_iff {path : Path} :
    checkPath path = .ok () ↔
      Char.ofNat 0 ∉ path.text.toList ∧ path.text ≠ "" ∧ path.text.utf8ByteSize ≤ pathLimit := by
  unfold checkPath checkNul checkSize
  split
  next nul =>
    refine iff_of_false nofun ?_
    rintro ⟨plain, _⟩
    exact plain (List.contains_iff_mem.1 nul)
  next plain =>
    rw [List.contains_iff_mem] at plain
    by_cases empty : path.text = ""
    · simp [empty, bind, Except.bind]
    · by_cases long : pathLimit < path.text.utf8ByteSize
      · simp [empty, long, bind, Except.bind]
      · simp [empty, plain, Nat.not_lt.1 long, bind, Except.bind]

theorem Location.text_path_append (directory : Location) (name suffix : String) :
    (Location.path (directory ++ [name ++ suffix])).text =
      (Location.path (directory ++ [name])).text ++ suffix := by
  by_cases top : directory = []
  · subst top
    simp [Location.path, String.append_assoc]
  · simp [Location.path, String.intercalate_append_of_ne_nil top, String.append_assoc]

theorem Location.Fits.without {directory : Location} {name suffix : String}
    (fits : Location.Fits (directory ++ [name ++ suffix])) : Location.Fits (directory ++ [name]) := by
  obtain ⟨clean, short⟩ := fits
  rw [Disk.checkPath_eq_ok_iff, text_path_append, String.toList_append,
    String.utf8ByteSize_append] at clean
  obtain ⟨plain, _, room⟩ := clean
  refine ⟨Disk.checkPath_eq_ok_iff.2 ⟨?_, by simp [Location.path], by omega⟩, ?_⟩
  · exact fun member => plain (List.mem_append_left _ member)
  · intro other member
    rcases List.mem_append.1 member with before | last
    · exact short other (by simp [before])
    · obtain rfl : other = name := by simpa using last
      have bound := short (other ++ suffix) (by simp)
      rw [String.utf8ByteSize_append] at bound
      omega

namespace Disk

variable {disk after : Disk} {directory : Location} {name : String}

theorem names_of_descend {look : Location → Option Entry} {here place : Location}
    {names : List String} (found : descend look here names = .ok place) :
    ∀ name ∈ names, name.utf8ByteSize ≤ nameLimit := by
  induction names generalizing here with
  | nil => exact nofun
  | cons first rest ih =>
      rw [descend] at found
      split at found
      next => cases found
      next short =>
        intro name member
        rcases List.mem_cons.1 member with rfl | later
        · exact Nat.not_lt.1 short
        · split at found
          next => cases found
          next => exact ih found name later
          next =>
            split at found
            next last =>
              subst last
              cases later
            next => cases found

theorem descend_of_stands {here : Location} {names : List String} {entry : Entry}
    (short : ∀ name ∈ names, name.utf8ByteSize ≤ nameLimit)
    (stands : disk.find? (here ++ names) = some entry) :
    descend disk.find? here names = .ok (here ++ names) := by
  induction names generalizing here with
  | nil => simp [descend]
  | cons name rest ih =>
      rw [List.append_cons] at stands ⊢
      have further := ih (fun other member => short other (.tail _ member)) stands
      rw [descend, if_neg (Nat.not_lt.2 (short name (.head _)))]
      by_cases last : rest = []
      · subst last
        rw [List.append_nil] at stands
        rw [stands]
        cases entry <;> simp [descend]
      · have above : disk.find? (here ++ [name]) = some .directory := by
          apply Classical.byContradiction
          intro leaf
          rw [find?_below_leaf leaf last] at stands
          cases stands
        rw [above]
        exact further

theorem approach_eq_ok_iff :
    approach disk.find? directory name = .ok () ↔
      checkPath (Location.path (directory ++ [name])) = .ok () ∧
        (∀ other ∈ directory, other.utf8ByteSize ≤ nameLimit) ∧
        disk.find? directory = some .directory := by
  unfold approach enter
  constructor
  · intro approached
    obtain ⟨_, clean, entered⟩ := bind_eq_ok_iff.1 approached
    obtain ⟨place, descended, checked⟩ := bind_eq_ok_iff.1 entered
    have same := eq_of_descend descended
    rw [List.nil_append] at same
    subst same
    split at checked
    next stands => exact ⟨clean, names_of_descend descended, stands⟩
    next => cases checked
  · rintro ⟨clean, short, stands⟩
    have descended : descend disk.find? [] directory = .ok directory :=
      descend_of_stands short (by simpa using stands)
    simp [clean, descended, stands, bind, Except.bind]

theorem find?_above {entry : Entry} (stands : disk.find? (directory ++ [name]) = some entry) :
    disk.find? directory = some .directory := by
  apply Classical.byContradiction
  intro leaf
  rw [find?_below_leaf leaf (by simp)] at stands
  cases stands

section Routes

variable (named : ∀ other ∈ directory ++ [name], IsName other) (free : disk.LinkFree directory)

include named free

theorem fits_of_createFile {content : ByteArray}
    (created : disk.createFile (Location.route (directory ++ [name])) content = .ok after) :
    Location.Fits (directory ++ [name]) := by
  rw [createFile_eq named free] at created
  obtain ⟨_, approached, created⟩ := bind_eq_ok_iff.1 created
  obtain ⟨clean, short, _⟩ := approach_eq_ok_iff.1 approached
  refine ⟨clean, ?_⟩
  intro other member
  rcases List.mem_append.1 member with before | last
  · exact short other before
  · obtain rfl : other = name := by simpa using last
    rw [create] at created
    split at created
    next => cases created
    next =>
      rw [place] at created
      split at created
      next => cases created
      next fits => exact Nat.not_lt.1 fits

/-- A file moves to another name in its directory unless a directory stands there. -/
theorem rename_of_fits {newName : String} {content : ByteArray} {age : Nat} (isName : IsName newName)
    (fits : Location.Fits (directory ++ [name])) (newFits : Location.Fits (directory ++ [newName]))
    (stands : disk.find? (directory ++ [name]) = some (.file content age)) :
    (disk.find? (directory ++ [newName]) = some .directory ∧
      disk.rename (Location.route (directory ++ [name]))
        (Location.route (directory ++ [newName])) = .error .isDirectory) ∨
      disk.find? (directory ++ [newName]) ≠ some .directory ∧
        ∃ after, disk.rename (Location.route (directory ++ [name]))
          (Location.route (directory ++ [newName])) = .ok after := by
  have ready := find?_above stands
  have short : ∀ other ∈ directory, other.utf8ByteSize ≤ nameLimit :=
    fun other member => fits.names other (by simp [member])
  have approached := approach_eq_ok_iff.2 ⟨fits.path, short, ready⟩
  have newApproached := approach_eq_ok_iff.2 ⟨newFits.path, short, ready⟩
  have room : ¬ nameLimit < newName.utf8ByteSize := Nat.not_lt.2 (newFits.names newName (by simp))
  rw [rename_eq named free isName, approached, newApproached, stands]
  simp only [bind, Except.bind, if_neg room]
  by_cases same : name = newName
  · subst same
    exact .inr ⟨by simp [stands], disk, by simp⟩
  · have different : directory ++ [name] ≠ directory ++ [newName] := by simpa using same
    rw [if_neg same, place, if_neg room, if_pos (by simpa [isDirectoryAt] using ready)]
    by_cases blocked : disk.find? (directory ++ [newName]) = some .directory
    · exact .inl ⟨blocked, by rw [if_pos (by simpa [isDirectoryAt] using blocked)]⟩
    · refine .inr ⟨blocked, ?_⟩
      rw [if_neg (by simpa [isDirectoryAt] using blocked)]
      have still : (disk.put directory newName (.file content age)).find? (directory ++ [name]) =
          some (.file content age) := by
        rw [find?_put ready blocked, if_neg different, stands]
      simp only [unlink, still]
      exact ⟨_, rfl⟩

end Routes

end Disk

end SourceBaseline
