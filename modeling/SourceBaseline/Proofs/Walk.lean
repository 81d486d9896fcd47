import Mathlib.Data.List.Find
import SourceBaseline.Extraction
import SourceBaseline.Proofs.Boundary.Locality
import SourceBaseline.Snapshot

/-!
# Walks over disks that are alike

Where every entry that a walk asks the boundary about is grounded, the walk lists the same files on
disks that are alike, and their hashes, symbols and descriptions are the same.
-/

set_option autoImplicit false

namespace SourceBaseline

variable {first second disk : Disk} {deadline : Deadline}

namespace Walk

variable {walk : Walk}

/-- The paths of the entries that the walk passes through the boundary. -/
def asked (walk : Walk) (disk : Disk) : List Path :=
  ((disk.below walk.boundary.root).filter fun (names, entry) =>
    entry ≠ .directory && !walk.exclude.isExcluded (relativePath names)).map fun (names, _) =>
      Location.path (walk.boundary.root ++ names)

theorem mem_asked {names : List String} {entry : Entry}
    (member : (names, entry) ∈ disk.below walk.boundary.root) (leaf : entry ≠ .directory)
    (kept : walk.exclude.isExcluded (relativePath names) = false) :
    Location.path (walk.boundary.root ++ names) ∈ walk.asked disk := by
  refine List.mem_map.2 ⟨(names, entry), List.mem_filter.2 ⟨member, ?_⟩, rfl⟩
  simp [leaf, kept]

theorem validate_of_tracked? {names : List String} {entry : Entry} {file : TrackedFile}
    (tracked : walk.tracked? disk names entry = some file) :
    walk.exclude.isExcluded (relativePath names) = false ∧
      walk.boundary.validate disk (Location.path (walk.boundary.root ++ names)) =
        .ok file.absolute := by
  unfold tracked? at tracked
  split at tracked
  next => cases tracked
  next kept =>
    refine ⟨by simpa using kept, ?_⟩
    split at tracked
    next valid =>
      cases tracked
      exact valid
    next valid =>
      split at tracked
      next =>
        cases tracked
        exact valid
      next => cases tracked
    next => cases tracked

theorem tracked?_congr {names : List String} {entry : Entry} {among : Location → Prop}
    (agrees : ∀ location, among location → first.AgreesTo location second)
    (keeps : walk.exclude.isExcluded (relativePath names) = false →
      walk.boundary.KeepsTo first (Location.path (walk.boundary.root ++ names)) among) :
    walk.tracked? first names entry = walk.tracked? second names entry := by
  unfold tracked?
  split
  next => rfl
  next kept =>
    have sure := keeps (by simpa using kept)
    rw [← sure.validate agrees]
    split
    next => rfl
    next target absolute _ valid =>
      unfold Disk.isFile
      rw [sure.inspect agrees valid]
    next => rfl

theorem visit_congr {count : Nat} {entries : List (List String × Entry)}
    (same : ∀ names entry, (names, entry) ∈ entries → entry ≠ .directory →
      walk.tracked? first names entry = walk.tracked? second names entry) :
    walk.visit first deadline count entries = walk.visit second deadline count entries := by
  fun_induction visit walk first deadline count entries with
  | case1 _ error expired => rw [visit, expired]
  | case2 _ running => rw [visit, running]
  | case3 _ names entry rest error expired => rw [visit, expired]
  | case4 _ names rest running excluded ih =>
      rw [visit, running]
      simp only [if_pos, excluded]
      apply ih
      intro other entry member leaf
      exact same other entry (.tail _ ((List.dropWhile_sublist _).subset member)) leaf
  | case5 _ names rest running kept ih =>
      rw [visit, running]
      simp only [kept]
      apply ih
      intro other entry member leaf
      exact same other entry (.tail _ member) leaf
  | case6 _ names entry rest running leaf untracked ih =>
      rw [visit, running]
      simp only [if_neg leaf, ← same names entry (.head _) leaf, untracked]
      apply ih
      intro other entry member leaf
      exact same other entry (.tail _ member) leaf
  | case7 _ names entry rest running leaf file tracked full =>
      rw [visit, running]
      simp only [if_neg leaf, ← same names entry (.head _) leaf, tracked, if_pos full]
  | case8 _ names entry rest running leaf file tracked within ih =>
      rw [visit, running]
      simp only [if_neg leaf, ← same names entry (.head _) leaf, tracked, if_neg within]
      congr 1
      apply ih
      intro other entry member leaf
      exact same other entry (.tail _ member) leaf

theorem enumerate_congr (alike : first.Alike walk.boundary.root second)
    (grounded : ∀ path ∈ walk.asked first, walk.boundary.Grounded first path) :
    walk.enumerate first deadline = walk.enumerate second deadline := by
  unfold enumerate items
  rw [← alike.below]
  congr 1
  apply visit_congr
  intro names entry member leaf
  apply tracked?_congr fun _ overlaps => alike.agreesTo overlaps
  intro kept
  exact (grounded _ (mem_asked member leaf kept)).keepsTo

theorem tracked?_of_mem_visit {count : Nat} {entries : List (List String × Entry)}
    {file : TrackedFile} (member : .ok file ∈ walk.visit disk deadline count entries) :
    ∃ names entry, (names, entry) ∈ entries ∧ entry ≠ .directory ∧
      walk.tracked? disk names entry = some file := by
  fun_induction visit walk disk deadline count entries with
  | case1 _ error expired => simp at member
  | case2 _ running => simp at member
  | case3 _ names entry rest error expired => simp at member
  | case4 _ names rest running excluded ih =>
      obtain ⟨other, entry, inside, leaf, tracked⟩ := ih member
      exact ⟨other, entry, .tail _ ((List.dropWhile_sublist _).subset inside), leaf, tracked⟩
  | case5 _ names rest running kept ih =>
      obtain ⟨other, entry, inside, leaf, tracked⟩ := ih member
      exact ⟨other, entry, .tail _ inside, leaf, tracked⟩
  | case6 _ names entry rest running leaf untracked ih =>
      obtain ⟨other, entry, inside, leaf, tracked⟩ := ih member
      exact ⟨other, entry, .tail _ inside, leaf, tracked⟩
  | case7 _ names entry rest running leaf file tracked full => simp at member
  | case8 _ names entry rest running leaf found tracked within ih =>
      rcases List.mem_cons.1 member with same | later
      · cases same
        exact ⟨names, entry, .head _, leaf, tracked⟩
      · obtain ⟨other, entry, inside, leaf, tracked⟩ := ih later
        exact ⟨other, entry, .tail _ inside, leaf, tracked⟩

theorem mem_of_mapM {α : Type} {items : List (Outcome α)} {values : List α}
    (collected : items.mapM id = .ok values) {value : α} (member : value ∈ values) :
    .ok value ∈ items := by
  induction items generalizing values with
  | nil =>
      cases collected
      cases member
  | cons item rest ih =>
      rw [List.mapM_cons] at collected
      obtain ⟨head, found, collected⟩ := bind_eq_ok_iff.1 collected
      obtain ⟨tail, later, same⟩ := bind_eq_ok_iff.1 collected
      cases same
      rcases List.mem_cons.1 member with here | behind
      · subst here
        exact found ▸ .head _
      · exact .tail _ (ih later behind)

theorem validate_of_enumerate {files : List TrackedFile}
    (listed : walk.enumerate disk deadline = .ok files) {file : TrackedFile} (member : file ∈ files) :
    ∃ path ∈ walk.asked disk, walk.boundary.validate disk path = .ok file.absolute := by
  obtain ⟨names, entry, inside, leaf, tracked⟩ := tracked?_of_mem_visit (mem_of_mapM listed member)
  obtain ⟨kept, valid⟩ := validate_of_tracked? tracked
  exact ⟨_, mem_asked inside leaf kept, valid⟩

theorem inspect_of_enumerate {files : List TrackedFile}
    (alike : first.Alike walk.boundary.root second)
    (grounded : ∀ path ∈ walk.asked first, walk.boundary.Grounded first path)
    (listed : walk.enumerate first deadline = .ok files) :
    ∀ file ∈ files, first.inspect file.absolute.route = second.inspect file.absolute.route := by
  intro file member
  obtain ⟨path, asked, valid⟩ := validate_of_enumerate listed member
  exact (grounded path asked).inspect alike valid

end Walk

theorem hashFiles_congr {files : List TrackedFile}
    (same : ∀ file ∈ files, first.inspect file.absolute.route = second.inspect file.absolute.route) :
    hashFiles first files = hashFiles second files := by
  unfold hashFiles
  congr 1
  apply List.map_congr_left
  intro file member
  unfold hashFile Disk.read
  rw [same file member]

section Extracted

variable {α ε : Type} {registry : Registry α} {adapter : Adapter α ε}

theorem Registry.extractFile_congr {file : TrackedFile}
    (same : first.inspect file.absolute.route = second.inspect file.absolute.route) :
    registry.extractFile adapter first file.relative file.absolute.route =
      registry.extractFile adapter second file.relative file.absolute.route := by
  unfold extractFile readSource
  rw [same]

theorem Registry.extract_congr {files : List TrackedFile}
    (same : ∀ file ∈ files, first.inspect file.absolute.route = second.inspect file.absolute.route) :
    registry.extract adapter first files deadline =
      registry.extract adapter second files deadline := by
  unfold extract
  generalize (⟨.empty, []⟩ : Extraction ε) = extraction
  induction files generalizing extraction with
  | nil => rfl
  | cons file rest ih =>
      rw [List.foldlM_cons, List.foldlM_cons, extractFile_congr (same file (.head _))]
      congr 1
      funext recorded
      exact ih (fun other member => same other (.tail _ member)) recorded

end Extracted

section Documentation

variable {boundary : Boundary}

theorem documentation?_congr
    (answers : ∀ name ∈ documentationNames, boundary.AnswersAlike first second ⟨name⟩) :
    documentation? first boundary = documentation? second boundary := by
  apply List.find?_congr
  intro name member
  rw [← (answers name member).place]
  split
  next place valid =>
    unfold Disk.isDirectory
    rw [(answers name member).found place valid]
  next => rfl

theorem readInside?_congr {name : String} (answers : boundary.AnswersAlike first second ⟨name⟩) :
    readInside? first boundary name = readInside? second boundary name := by
  unfold readInside?
  rw [← answers.place]
  split
  next place valid =>
    unfold Disk.readText Disk.read
    rw [answers.found place valid]
  next => rfl

theorem description_congr
    (answers : ∀ name ∈ readMeNames, boundary.AnswersAlike first second ⟨name⟩) :
    description first boundary = description second boundary := by
  have found : readMeNames.findSome? (readInside? first boundary) =
      readMeNames.findSome? (readInside? second boundary) := by
    revert answers
    generalize readMeNames = names
    intro answers
    induction names with
    | nil => rfl
    | cons name rest ih =>
        rw [List.findSome?_cons, List.findSome?_cons, readInside?_congr (answers name (.head _)),
          ih fun other member => answers other (.tail _ member)]
  unfold description
  rw [found]

end Documentation

end SourceBaseline
