import Mathlib.Data.List.Basic
import SourceBaseline.Proofs.Boundary.Containment
import SourceBaseline.Proofs.Boundary.Standing
import SourceBaseline.Proofs.Disk.Listing
import SourceBaseline.Proofs.Snapshot
import SourceBaseline.Proofs.Text.ByteOrder

/-!
# What a walk lists

A walk goes past excluded directories without entering them. `enumerate_eq` says that it lists what
it would list if it visited everything below the root and left out afterwards what is excluded or
stands in a directory that is.
-/

set_option autoImplicit false

namespace SourceBaseline

/-- Names in order that have left a directory behind do not come back to it. -/
theorem not_prefix_of_lt {names first later : List String} (before : names < first)
    (apart : ¬ names <+: first) (after : first < later) : ¬ names <+: later := by
  induction before generalizing later with
  | nil => exact absurd List.nil_prefix apart
  | @rel name other rest more smaller =>
      intro within
      obtain ⟨last, rfl⟩ := within
      rcases List.cons_lt_cons_iff.1 after with greater | ⟨same, _⟩
      · exact String.lt_irrefl _ (String.lt_trans smaller greater)
      · exact String.lt_irrefl _ (same ▸ smaller)
  | @cons name rest more _ ih =>
      intro within
      obtain ⟨last, rfl⟩ := within
      rcases List.cons_lt_cons_iff.1 after with greater | ⟨_, further⟩
      · exact String.lt_irrefl _ greater
      · exact ih (fun inner => apart ((List.prefix_cons_inj name).2 inner)) further
          (List.prefix_append rest last)

namespace Walk

variable {walk : Walk} {disk : Disk} {deadline : Deadline} {names : List String} {entry : Entry}
  {entries : List (List String × Entry)}

/-! ## Leaving out afterwards -/

/-- Neither the entry nor a directory between it and the root is excluded. -/
def Keeps (walk : Walk) (names : List String) : Prop :=
  ∀ shorter, shorter <+: names → shorter ≠ [] →
    walk.exclude.isExcluded (relativePath shorter) = false

instance (walk : Walk) (names : List String) : Decidable (walk.Keeps names) :=
  decidable_of_iff
    (∀ shorter ∈ Location.ancestors names, shorter ≠ [] →
      walk.exclude.isExcluded (relativePath shorter) = false)
    ⟨fun all shorter within => all shorter (Location.mem_ancestors_iff.2 within),
      fun keeps shorter member => keeps shorter (Location.mem_ancestors_iff.1 member)⟩

/-- The files among some entries. -/
def collect (walk : Walk) (disk : Disk) (entries : List (List String × Entry)) : List TrackedFile :=
  entries.filterMap fun found =>
    if walk.Keeps found.1 then walk.tracked? disk found.1 found.2 else none

/-- Everything below the root, without what is not kept. -/
def listed (walk : Walk) (disk : Disk) : List TrackedFile :=
  walk.collect disk (disk.below walk.boundary.root)

/-- Hand out files one by one, after `count` others, up to the ceiling. -/
def report (walk : Walk) : Nat → List TrackedFile → List (Outcome TrackedFile)
  | _, [] => []
  | count, file :: rest =>
      if walk.ceiling ≤ count then [.error (fileLimitError walk.ceiling)]
      else .ok file :: walk.report (count + 1) rest

theorem mapM_report {count : Nat} {files : List TrackedFile} (room : count ≤ walk.ceiling) :
    (walk.report count files).mapM id =
      if walk.ceiling < count + files.length then .error (fileLimitError walk.ceiling)
      else .ok files := by
  induction files generalizing count with
  | nil =>
      rw [List.length_nil, Nat.add_zero, if_neg (Nat.not_lt.2 room)]
      rfl
  | cons file rest ih =>
      rw [report]
      by_cases full : walk.ceiling ≤ count
      · rw [if_pos full, if_pos (by rw [List.length_cons]; omega)]
        rfl
      · rw [if_neg full, List.mapM_cons, ih (by omega), List.length_cons, Nat.add_assoc,
          Nat.add_comm 1]
        split <;> rfl

/-! ## Going past excluded directories -/

/-- The entries are in order, and every excluded directory above one of them is among them. -/
structure Ahead (walk : Walk) (entries : List (List String × Entry)) : Prop where
  inner : ∀ found ∈ entries, found.1 ≠ []
  sorted : entries.Pairwise ListedBefore
  closed : ∀ found ∈ entries, ∀ shorter, shorter <+: found.1 → shorter ≠ found.1 → shorter ≠ [] →
    walk.exclude.isExcluded (relativePath shorter) = true → (shorter, .directory) ∈ entries

theorem ahead_below : walk.Ahead (disk.below walk.boundary.root) :=
  ⟨fun _ member => (Disk.mem_below_iff.1 member).1, Disk.pairwise_below,
    fun _ member _ within proper inner _ => Disk.mem_below_of_above member within inner proper⟩

/-- Past an entry that is no excluded directory nothing changes for the others. -/
theorem Ahead.tail (ahead : walk.Ahead ((names, entry) :: entries))
    (kept : entry = .directory → walk.exclude.isExcluded (relativePath names) = false) :
    walk.Ahead entries := by
  refine ⟨fun found member => ahead.inner found (.tail _ member), ahead.sorted.tail, ?_⟩
  intro found member shorter within proper inner excluded
  have among := ahead.closed found (.tail _ member) shorter within proper inner excluded
  rcases List.mem_cons.1 among with same | later
  · obtain ⟨rfl, rfl⟩ := Prod.mk.inj same
    rw [kept rfl] at excluded
    cases excluded
  · exact later

/-- What is dropped with a directory is all that stands below it. -/
theorem dropWhile_eq_filter (sorted : entries.Pairwise ListedBefore)
    (later : ∀ found ∈ entries, names < found.1) :
    entries.dropWhile (fun found => names.isPrefixOf found.1) =
      entries.filter fun found => !names.isPrefixOf found.1 := by
  induction entries with
  | nil => rfl
  | cons head rest ih =>
      obtain ⟨first, sortedRest⟩ := List.pairwise_cons.1 sorted
      cases within : names.isPrefixOf head.1 with
      | true =>
          simp only [List.dropWhile_cons, List.filter_cons, within, if_true, Bool.not_true,
            Bool.false_eq_true, if_false]
          exact ih sortedRest fun found member => later found (.tail _ member)
      | false =>
          simp only [List.dropWhile_cons, List.filter_cons, within, Bool.false_eq_true, if_false,
            Bool.not_false, if_true]
          refine congrArg (head :: ·) (List.filter_eq_self.2 ?_).symm
          intro found member
          have apart : ¬ names <+: head.1 := by
            rw [← List.isPrefixOf_iff_prefix, within]
            exact nofun
          have beyond := not_prefix_of_lt (later head (.head _)) apart (first found member)
          simpa [← List.isPrefixOf_iff_prefix] using beyond

theorem Ahead.prune (ahead : walk.Ahead ((names, entry) :: entries)) :
    walk.Ahead (entries.filter fun found => !names.isPrefixOf found.1) := by
  refine ⟨fun found member => ahead.inner found (.tail _ (List.mem_filter.1 member).1),
    ahead.sorted.tail.filter _, ?_⟩
  intro found member shorter within proper inner excluded
  obtain ⟨member, apart⟩ := List.mem_filter.1 member
  have outside : ¬ names <+: found.1 := by
    simpa [← List.isPrefixOf_iff_prefix] using apart
  have among := ahead.closed found (.tail _ member) shorter within proper inner excluded
  rcases List.mem_cons.1 among with same | later
  · obtain ⟨rfl, rfl⟩ := Prod.mk.inj same
    exact absurd within outside
  · refine List.mem_filter.2 ⟨later, ?_⟩
    have apartToo : ¬ names <+: shorter := fun above => outside (above.trans within)
    simpa [← List.isPrefixOf_iff_prefix] using apartToo

theorem collect_cons : walk.collect disk ((names, entry) :: entries) =
    (if walk.Keeps names then walk.tracked? disk names entry else none).toList ++
      walk.collect disk entries := by
  unfold collect
  rw [List.filterMap_cons]
  dsimp only
  cases (if walk.Keeps names then walk.tracked? disk names entry else none) <;> rfl

theorem tracked?_directory : walk.tracked? disk names .directory = none := by
  unfold tracked?
  split <;> rfl

theorem not_keeps {shorter : List String} (within : shorter <+: names) (inner : shorter ≠ [])
    (excluded : walk.exclude.isExcluded (relativePath shorter) = true) : ¬ walk.Keeps names := by
  intro keeps
  rw [keeps shorter within inner] at excluded
  cases excluded

theorem collect_filter (inner : names ≠ [])
    (excluded : walk.exclude.isExcluded (relativePath names) = true) :
    walk.collect disk (entries.filter fun found => !names.isPrefixOf found.1) =
      walk.collect disk entries := by
  unfold collect
  rw [List.filterMap_filter]
  congr 1
  funext found
  by_cases within : names.isPrefixOf found.1
  · have left : ¬ walk.Keeps found.1 := by
      intro keeps
      rw [keeps names (List.isPrefixOf_iff_prefix.1 within) inner] at excluded
      cases excluded
    simp [within, left]
  · simp [within]

/-- A leaf that is not excluded itself is kept: an excluded directory above it would still have to
come. -/
theorem Ahead.keeps (ahead : walk.Ahead ((names, entry) :: entries)) (leaf : entry ≠ .directory)
    (kept : walk.exclude.isExcluded (relativePath names) = false) : walk.Keeps names := by
  intro shorter within inner
  apply Classical.byContradiction
  intro excluded
  have proper : shorter ≠ names := by
    rintro rfl
    exact excluded kept
  have among := ahead.closed _ (.head _) shorter within proper inner (by simpa using excluded)
  rcases List.mem_cons.1 among with same | later
  · exact leaf (Prod.mk.inj same).2.symm
  · exact within.le ((List.pairwise_cons.1 ahead.sorted).1 _ later)

theorem visit_eq {count : Nat} (running : deadline.isExpired = false) (ahead : walk.Ahead entries) :
    walk.visit disk deadline count entries = walk.report count (walk.collect disk entries) := by
  have checked : deadline.check = .ok () := by simp [Deadline.check, running]
  -- What is still ahead holds every excluded directory above it that has not been pruned.
  fun_induction visit walk disk deadline count entries with
  | case1 _ error expired => cases checked.symm.trans expired
  | case2 _ _ => rfl
  | case3 _ names entry rest error expired => cases checked.symm.trans expired
  | case4 count names rest _ excluded ih =>
      have inner := ahead.inner _ (.head _)
      have dropped : rest.dropWhile (fun other => names.isPrefixOf other.1) =
          rest.filter fun other => !names.isPrefixOf other.1 :=
        dropWhile_eq_filter ahead.sorted.tail (List.pairwise_cons.1 ahead.sorted).1
      rw [dropped] at ih ⊢
      rw [ih ahead.prune, collect_filter inner excluded, collect_cons,
        if_neg (not_keeps List.prefix_rfl inner excluded)]
      rfl
  | case5 count names rest _ kept ih =>
      rw [ih (ahead.tail fun _ => by simpa using kept), collect_cons, tracked?_directory]
      simp
  | case6 count names entry rest _ leaf untracked ih =>
      rw [ih (ahead.tail fun same => absurd same leaf), collect_cons, untracked]
      simp
  | case7 count names entry rest _ leaf file tracked full =>
      have keeps := ahead.keeps leaf (validate_of_tracked? tracked).1
      rw [collect_cons, if_pos keeps, tracked]
      simp [report, full]
  | case8 count names entry rest _ leaf file tracked within ih =>
      have keeps := ahead.keeps leaf (validate_of_tracked? tracked).1
      rw [ih (ahead.tail fun same => absurd same leaf), collect_cons, if_pos keeps, tracked]
      simp [report, within]

theorem visit_of_expired {count : Nat} (expired : deadline.isExpired = true)
    (entries : List (List String × Entry)) :
    walk.visit disk deadline count entries = [.error deadline.error] := by
  have checked : deadline.check = .error deadline.error := if_pos expired
  cases entries with
  | nil => rw [visit, checked]
  | cons found rest => rw [visit, checked]

/-- The walk lists what is left of everything below the root, if that is not too much. -/
theorem enumerate_eq : walk.enumerate disk deadline = (do
    deadline.check
    if walk.ceiling < (walk.listed disk).length then .error (fileLimitError walk.ceiling)
    else .ok (walk.listed disk)) := by
  unfold enumerate items
  by_cases expired : deadline.isExpired = true
  · have checked : deadline.check = .error deadline.error := if_pos expired
    rw [visit_of_expired expired, checked]
    rfl
  · have running : deadline.check = .ok () := if_neg expired
    rw [visit_eq (by simpa using expired) ahead_below, mapM_report (Nat.zero_le _), Nat.zero_add,
      running]
    rfl

theorem listed_of_enumerate {files : List TrackedFile}
    (enumerated : walk.enumerate disk deadline = .ok files) : files = walk.listed disk := by
  rw [enumerate_eq] at enumerated
  obtain ⟨_, _, within⟩ := bind_eq_ok_iff.1 enumerated
  split at within
  next => cases within
  next => exact (Except.ok.inj within).symm

/-! ## What is kept -/

/-- What stands below the root and is kept, without the directories. -/
def kept (walk : Walk) (disk : Disk) : List (List String × Entry) :=
  (disk.below walk.boundary.root).filter fun found => found.2 ≠ .directory ∧ walk.Keeps found.1

theorem mem_kept_iff : (names, entry) ∈ walk.kept disk ↔
    names ≠ [] ∧ disk.find? (walk.boundary.root ++ names) = some entry ∧ entry ≠ .directory ∧
      walk.Keeps names := by
  simp [kept, Disk.mem_below_iff, and_assoc]

theorem listed_eq_filterMap_kept : walk.listed disk =
    (walk.kept disk).filterMap fun found => walk.tracked? disk found.1 found.2 := by
  unfold listed collect kept
  rw [List.filterMap_filter]
  congr 1
  funext found
  obtain ⟨names, entry⟩ := found
  by_cases leaf : entry = .directory
  · simp [leaf, tracked?_directory]
  · simp [leaf]

theorem mem_listed_iff_kept {file : TrackedFile} :
    file ∈ walk.listed disk ↔ ∃ names entry, (names, entry) ∈ walk.kept disk ∧
      walk.tracked? disk names entry = some file := by
  simp [listed_eq_filterMap_kept]

theorem listed_congr {second : Disk}
    (same : ∀ found, found ∈ walk.kept disk ↔ found ∈ walk.kept second)
    (alike : ∀ names entry, (names, entry) ∈ walk.kept disk →
      walk.tracked? disk names entry = walk.tracked? second names entry) :
    walk.listed disk = walk.listed second := by
  have sorted : ∀ disk, (walk.kept disk).Pairwise ListedBefore :=
    fun disk => Disk.pairwise_below.filter _
  have unique : ∀ disk, (walk.kept disk).Nodup := by
    intro disk
    refine (sorted disk).imp ?_
    intro first second before equal
    exact List.lt_irrefl _ (equal ▸ before)
  -- Both lists are in order, so the same members make the same list.
  have permutation := (List.perm_ext_iff_of_nodup (unique disk) (unique second)).2 same
  have equal : walk.kept disk = walk.kept second := by
    apply permutation.eq_of_pairwise ?_ (sorted disk) (sorted second)
    intro first other _ _ before after
    exact absurd before (List.lt_asymm after)
  rw [listed_eq_filterMap_kept, listed_eq_filterMap_kept, ← equal]
  apply List.filterMap_congr
  intro found member
  exact alike found.1 found.2 member

/-! ## What is listed, without reference to a walk -/

/-- A file that fits is where it stands. A link is tracked if the boundary finds the place that it
leads to, and that is a file. -/
inductive Tracks (walk : Walk) (disk : Disk) (names : List String) : Location → Prop where
  | file {content : ByteArray} {age : Nat} :
      disk.find? (walk.boundary.root ++ names) = some (.file content age) →
      Location.Fits (walk.boundary.root ++ names) →
      Tracks walk disk names (walk.boundary.root ++ names)
  | link {target : Path} {place : Location} :
      disk.find? (walk.boundary.root ++ names) = some (.link target) →
      walk.boundary.validate disk (Location.path (walk.boundary.root ++ names)) = .ok place →
      disk.isFile place.route = true → Tracks walk disk names place

theorem Tracks.exists_entry {place : Location} (tracks : walk.Tracks disk names place) :
    ∃ entry, disk.find? (walk.boundary.root ++ names) = some entry ∧ entry ≠ .directory := by
  cases tracks with
  | file stands _ => exact ⟨_, stands, by simp⟩
  | link stands _ _ => exact ⟨_, stands, by simp⟩

theorem tracks_of_tracked? {file : TrackedFile} (named : disk.Named) (inner : names ≠ [])
    (stands : disk.find? (walk.boundary.root ++ names) = some entry)
    (tracked : walk.tracked? disk names entry = some file) :
    walk.Tracks disk names file.absolute := by
  obtain ⟨kept, valid⟩ := validate_of_tracked? tracked
  cases entry with
  | directory => cases (tracked?_directory).symm.trans tracked
  | file content age =>
      obtain ⟨same, fits⟩ := (Boundary.validate_eq_ok_iff (named.of_stands stands) stands rfl
        (List.prefix_append _ _) (by simp [inner])).1 valid
      rw [same]
      exact .file stands fits
  | link target =>
      refine .link stands valid ?_
      apply Classical.byContradiction
      intro noFile
      simp [tracked?, kept, valid, noFile] at tracked

theorem tracked?_eq_some_iff {file : TrackedFile} (named : disk.Named) (inner : names ≠ [])
    (keeps : walk.Keeps names) (stands : disk.find? (walk.boundary.root ++ names) = some entry) :
    walk.tracked? disk names entry = some file ↔
      file.relative = relativePath names ∧ walk.Tracks disk names file.absolute := by
  obtain ⟨relative, absolute⟩ := file
  have kept := keeps names List.prefix_rfl inner
  constructor
  · intro tracked
    exact ⟨relative_of_tracked? tracked, tracks_of_tracked? named inner stands tracked⟩
  · rintro ⟨rfl, tracks⟩
    cases tracks with
    | @file content age found fits =>
        cases stands.symm.trans found
        have valid : walk.boundary.validate disk (Location.path (walk.boundary.root ++ names)) =
            .ok (walk.boundary.root ++ names) :=
          (Boundary.validate_eq_ok_iff (named.of_stands stands) stands rfl (List.prefix_append _ _)
            (by simp [inner])).2 ⟨rfl, fits⟩
        simp [tracked?, kept, valid]
    | @link target _ found valid isFile =>
        cases stands.symm.trans found
        simp [tracked?, kept, valid, isFile]

/-- The files are listed in the order of their paths, which are compared name by name and byte by
byte. -/
theorem pairwise_listed (named : disk.Named) :
    (walk.listed disk).Pairwise fun first second =>
      Path.nameBytes first.relative < Path.nameBytes second.relative := by
  unfold listed collect
  rw [List.pairwise_filterMap]
  refine Disk.pairwise_below.imp_of_mem ?_
  intro first second member memberToo before file found fileToo foundToo
  have relative : ∀ {found : List String × Entry} {file : TrackedFile},
      (if walk.Keeps found.1 then walk.tracked? disk found.1 found.2 else none) = some file →
      file.relative = relativePath found.1 := by
    intro found file tracked
    split at tracked
    next => exact relative_of_tracked? tracked
    next => cases tracked
  have namedBelow : ∀ found ∈ disk.below walk.boundary.root, ∀ name ∈ found.1, IsName name := by
    intro found member name inside
    exact named.of_stands (Disk.mem_below_iff.1 member).2 name (List.mem_append_right _ inside)
  rw [relative found, relative foundToo]
  exact Path.nameBytes_lt (namedBelow first member) (namedBelow second memberToo)
    (Disk.mem_below_iff.1 member).1 before

/-- A project with a note, a link to the note and a directory that is to be left out. -/
def mixedDisk : Disk :=
  let noted := Boundary.leavingDisk.put ["project"] "note" (.file .empty 0)
  let linked := noted.put ["project"] "too" (.link ⟨"note"⟩)
  (linked.put ["project"] "gone" .directory).put ["project", "gone"] "note" (.file .empty 0)

def mixedWalk : Walk := ⟨Boundary.projectBoundary, .withUserRules ["gone"], 2⟩

end Walk

namespace Tree

/-- A tree in a directory below others. -/
def nest : Location → Tree → Tree
  | [], tree => tree
  | name :: rest, tree => [(name, .directory (nest rest tree))]

theorem Ordered.nest {tree : Tree} (ordered : tree.Ordered) (names : Location) :
    Ordered (nest names tree) := by
  induction names with
  | nil => exact ordered
  | cons name rest ih =>
      refine .intro (List.pairwise_singleton _ _) ?_
      intro other inner member
      cases List.mem_singleton.1 member
      exact ih

theorem find?_nest (tree : Tree) (names : Location) :
    find? (nest names tree) names = some (.directory tree) := by
  induction names with
  | nil => rfl
  | cons name rest ih => simp [nest, find?, child?, ih]

end Tree

namespace Walk

def longName : String := .ofList (List.replicate 254 'd')

/-- A project at a place with a long path, and a name that makes the path too long. -/
def deepBoundary : Boundary where
  root := List.replicate 16 longName
  linkBudget := defaultLinkBudget
  named := by
    intro name member
    rw [List.eq_of_mem_replicate member]
    decide +kernel

def deepName : String := "beyond-the-limit"

def deepDisk : Disk where
  tree := Tree.nest deepBoundary.root [(deepName, .file .empty 0)]
  ordered := Tree.Ordered.nest (.intro (List.pairwise_singleton _ _) (by simp)) _

def deepWalk : Walk := ⟨deepBoundary, .withUserRules [], 1⟩

end Walk

end SourceBaseline
