import SourceBaseline.Extraction
import SourceBaseline.Proofs.Walk
import SourceBaseline.Snapshot

/-!
# What snapshots record

Snapshots record nothing but files that the walk lists, which are no more than its ceiling and none
of them excluded.
-/

set_option autoImplicit false

namespace SourceBaseline

variable {disk : Disk} {deadline : Deadline} {files : List TrackedFile}

namespace Walk

variable {walk : Walk}

theorem relative_of_tracked? {names : List String} {entry : Entry} {file : TrackedFile}
    (tracked : walk.tracked? disk names entry = some file) : file.relative = relativePath names := by
  unfold tracked? at tracked
  split at tracked
  next => cases tracked
  next =>
    split at tracked
    next =>
      cases tracked
      rfl
    next =>
      split at tracked
      next =>
        cases tracked
        rfl
      next => cases tracked
    next => cases tracked

theorem not_excluded_of_enumerate (listed : walk.enumerate disk deadline = .ok files)
    {file : TrackedFile} (member : file ∈ files) : walk.exclude.isExcluded file.relative = false := by
  obtain ⟨names, entry, _, _, tracked⟩ := tracked?_of_mem_visit (mem_of_mapM listed member)
  rw [relative_of_tracked? tracked]
  exact (validate_of_tracked? tracked).1

theorem length_of_visit {count : Nat} {entries : List (List String × Entry)}
    (room : count ≤ walk.ceiling)
    (listed : (walk.visit disk deadline count entries).mapM id = .ok files) :
    count + files.length ≤ walk.ceiling := by
  fun_induction visit walk disk deadline count entries generalizing files with
  | case1 _ error expired => cases listed
  | case2 _ running =>
      cases listed
      exact room
  | case3 _ names entry rest error expired => cases listed
  | case4 _ names rest running excluded ih => exact ih room listed
  | case5 _ names rest running kept ih => exact ih room listed
  | case6 _ names entry rest running leaf untracked ih => exact ih room listed
  | case7 _ names entry rest running leaf file tracked full => cases listed
  | case8 _ names entry rest running leaf found tracked within ih =>
      rw [List.mapM_cons] at listed
      obtain ⟨first, _, listed⟩ := bind_eq_ok_iff.1 listed
      obtain ⟨later, found, same⟩ := bind_eq_ok_iff.1 listed
      cases same
      have bound := ih (by omega) found
      rw [List.length_cons]
      omega

theorem length_of_enumerate (listed : walk.enumerate disk deadline = .ok files) :
    files.length ≤ walk.ceiling := by
  have bound := length_of_visit (Nat.zero_le _) listed
  omega

end Walk

/-- A snapshot has a hash for at most as many files as the ceiling lets through, none excluded. -/
theorem files_of_snapshot {walk : Walk} {git : Git} {baseline : ChecksumBaseline} {left : Deadline}
    (taken : snapshot walk disk git deadline = .ok (baseline, left)) :
    baseline.files.size ≤ walk.ceiling ∧
      baseline.files.filter (fun file _ => !walk.exclude.isExcluded file) = baseline.files := by
  obtain ⟨files, listed, taken⟩ := bind_eq_ok_iff.1 taken
  cases taken
  constructor
  · calc (hashFiles disk files).size ≤ (files.map _).length := SortedMap.size_ofList_le _
      _ = files.length := List.length_map _
      _ ≤ walk.ceiling := Walk.length_of_enumerate listed
  · apply SortedMap.filter_eq_self
    intro entry member
    obtain ⟨file, inside, rfl⟩ := List.mem_map.1 (SortedMap.mem_of_mem_ofList member)
    rw [Walk.not_excluded_of_enumerate listed inside]
    rfl

theorem createdAt_of_snapshot {walk : Walk} {git : Git} {baseline : ChecksumBaseline}
    {left : Deadline} (taken : snapshot walk disk git deadline = .ok (baseline, left)) :
    baseline.createdAt = "" := by
  obtain ⟨_, _, taken⟩ := bind_eq_ok_iff.1 taken
  cases taken
  rfl

namespace Registry

variable {α ε : Type} {registry : Registry α} {adapter : Adapter α ε} {extraction : Extraction ε}

/-- The symbols of a file under its path, if it can be read and has some. -/
def found? (registry : Registry α) (adapter : Adapter α ε) (disk : Disk) (file : TrackedFile) :
    Option (String × List Symbol) :=
  match registry.extractFile adapter disk file.relative file.absolute.route with
  | .ok (first :: rest) => some (file.relative, first :: rest)
  | _ => none

theorem relative_of_found? {file : TrackedFile} {entry : String × List Symbol}
    (found : registry.found? adapter disk file = some entry) : entry.1 = file.relative := by
  unfold found? at found
  split at found
  next =>
    cases found
    rfl
  next => cases found

/-- The files recorded one after the other. -/
def recorded (registry : Registry α) (adapter : Adapter α ε) (disk : Disk)
    (files : List TrackedFile) : Extraction ε :=
  files.foldl (fun extraction file => extraction.record file.relative
    (registry.extractFile adapter disk file.relative file.absolute.route)) ⟨.empty, []⟩

/-- In time, nothing but the files decides what is extracted. -/
theorem eq_recorded_of_extract
    (extracted : registry.extract adapter disk files deadline = .ok extraction) :
    extraction = registry.recorded adapter disk files := by
  unfold extract at extracted
  unfold recorded
  generalize (⟨.empty, []⟩ : Extraction ε) = start at *
  induction files generalizing start with
  | nil =>
      cases extracted
      rfl
  | cons file rest ih =>
      rw [List.foldlM_cons] at extracted
      obtain ⟨next, stepped, extracted⟩ := bind_eq_ok_iff.1 extracted
      obtain ⟨_, _, same⟩ := bind_eq_ok_iff.1 stepped
      cases same
      exact ih _ extracted

theorem symbols_record {file : TrackedFile} :
    (extraction.record file.relative
        (registry.extractFile adapter disk file.relative file.absolute.route)).symbols =
      match registry.found? adapter disk file with
      | some entry => extraction.symbols.insert entry.1 entry.2
      | none => extraction.symbols := by
  unfold found? Extraction.record
  cases registry.extractFile adapter disk file.relative file.absolute.route with
  | error reason => cases reason <;> rfl
  | ok symbols => cases symbols <;> rfl

theorem symbols_recorded :
    (registry.recorded adapter disk files).symbols =
      .ofList (files.filterMap (registry.found? adapter disk)) := by
  rw [SortedMap.ofList, List.foldl_filterMap]
  refine (List.foldl_hom Extraction.symbols fun extraction file => ?_).symm
  rw [symbols_record]
  cases registry.found? adapter disk file <;> rfl

theorem symbols_of_extract
    (extracted : registry.extract adapter disk files deadline = .ok extraction) :
    extraction.symbols = .ofList (files.filterMap (registry.found? adapter disk)) := by
  rw [eq_recorded_of_extract extracted, symbols_recorded]

theorem files_of_extract
    (extracted : registry.extract adapter disk files deadline = .ok extraction) :
    ∀ entry ∈ extraction.symbols.entries, ∃ file ∈ files, entry.1 = file.relative := by
  intro entry member
  rw [symbols_of_extract extracted] at member
  obtain ⟨file, inside, found⟩ := List.mem_filterMap.1 (SortedMap.mem_of_mem_ofList member)
  exact ⟨file, inside, relative_of_found? found⟩

end Registry

/-- The symbols that the languages find in a file, under its path. -/
def Extractor.found? (extractor : Extractor) (disk : Disk) (file : TrackedFile) :
    Option (String × List Symbol) :=
  extractor.registry.found? extractor.adapter disk file

end SourceBaseline
