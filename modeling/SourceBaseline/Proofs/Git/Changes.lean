import Mathlib.Data.List.Infix
import Mathlib.Data.List.Sort
import SourceBaseline.Git
import SourceBaseline.Proofs.Boundary.Obstruction
import SourceBaseline.Proofs.Comparison.Files

/-!
# The changes since a revision

Of the changes that git lists, those are reported whose file is not excluded and whose path the boundary
accepts. They stand in the strict order `FileChange.Before`, so that neither the order of what git lists
nor how often it lists something has any influence on the report.
-/

set_option autoImplicit false

namespace SourceBaseline

namespace Git

open FileChange

variable {change : FileChange} {changes : List FileChange}

theorem mem_dropRepeats_iff : change ∈ dropRepeats changes ↔ change ∈ changes := by
  fun_induction dropRepeats changes with
  | case1 => rfl
  | case2 => rfl
  | case3 first rest ih => simp [ih]
  | case4 first second rest different ih =>
      rw [List.mem_cons, ih]
      exact List.mem_cons.symm

/-- Where neighbours are equal or in order, no two changes are equal once repeats are dropped. -/
theorem pairwise_dropRepeats
    (sorted : changes.Pairwise fun left right => left = right ∨ Before left right) :
    (dropRepeats changes).Pairwise Before := by
  fun_induction dropRepeats changes with
  | case1 => exact .nil
  | case2 => exact List.pairwise_singleton _ _
  | case3 first rest ih => exact ih sorted.tail
  | case4 first second rest different ih =>
      refine List.pairwise_cons.2 ⟨fun later member => ?_, ih sorted.tail⟩
      have before := (List.rel_of_pairwise_cons sorted (.head _)).resolve_left different
      rcases List.mem_cons.1 (mem_dropRepeats_iff.1 member) with rfl | further
      · exact before
      · rcases List.rel_of_pairwise_cons sorted.tail further with rfl | beforeToo
        · exact before
        · exact before.trans beforeToo

/-! ## The report -/

section Report

variable {git : Git} {disk : Disk} {boundary : Boundary} {exclude : Exclude} {revision output : String}
  {deadline later : Deadline}

/-- What is reported of the changes that git lists. -/
def reported (disk : Disk) (boundary : Boundary) (exclude : Exclude) (listed : List FileChange) :
    List FileChange :=
  dropRepeats (FileChange.sort (listed.filter fun change =>
    !exclude.isExcluded change.file && (boundary.validate disk ⟨change.file⟩).toOption.isSome))

theorem mem_reported_iff : change ∈ reported disk boundary exclude changes ↔
    change ∈ changes ∧ exclude.isExcluded change.file = false ∧
      ∃ place, boundary.validate disk ⟨change.file⟩ = .ok place := by
  rw [reported, mem_dropRepeats_iff, FileChange.sort, (List.mergeSort_perm _ _).mem_iff,
    List.mem_filter, Bool.and_eq_true, Bool.not_eq_true', Option.isSome_iff_exists]
  simp only [toOption_eq_some_iff]

theorem pairwise_reported : (reported disk boundary exclude changes).Pairwise Before :=
  pairwise_dropRepeats FileChange.pairwise_sort

theorem reported_congr {others : List FileChange} (same : ∀ change, change ∈ others ↔ change ∈ changes) :
    reported disk boundary exclude others = reported disk boundary exclude changes := by
  refine pairwise_reported.eq_of_mem_iff pairwise_reported fun change => ?_
  rw [mem_reported_iff, mem_reported_iff, same]

theorem changedFilesSince_eq (accepted : checkRevision revision = .ok ())
    (answered : git.ask (.changesSince revision) deadline = (.ok output, later)) :
    git.changedFilesSince disk boundary exclude revision deadline =
      .ok (reported disk boundary exclude (parseNameStatus output), later) := by
  unfold changedFilesSince
  rw [accepted, answered]
  rfl

theorem mem_parseNameStatus_congr {first second : String}
    (same : ∀ line, line ∈ Text.lines first.toList ↔ line ∈ Text.lines second.toList) :
    change ∈ parseNameStatus first ↔ change ∈ parseNameStatus second := by
  simp only [parseNameStatus, List.mem_flatMap, same]

/-- The report lists in strict order, and so once each, exactly the changes whose file is not excluded
and whose path the boundary accepts. Any answer of git in which the same changes can be read, such as
the same lines in another order or repeated, leads to the same report. -/
theorem changedFilesSince_exact (accepted : checkRevision revision = .ok ())
    (answered : git.ask (.changesSince revision) deadline = (.ok output, later)) :
    ∃ changes, git.changedFilesSince disk boundary exclude revision deadline = .ok (changes, later) ∧
      changes.Pairwise Before ∧
      (∀ change, change ∈ changes ↔
        change ∈ parseNameStatus output ∧ exclude.isExcluded change.file = false ∧
          ∃ place, boundary.validate disk ⟨change.file⟩ = .ok place) ∧
      ∀ (gitToo : Git) (revisionToo outputToo : String) (deadlineToo laterToo : Deadline),
        checkRevision revisionToo = .ok () →
        gitToo.ask (.changesSince revisionToo) deadlineToo = (.ok outputToo, laterToo) →
        (∀ change, change ∈ parseNameStatus outputToo ↔ change ∈ parseNameStatus output) ∨
          (∀ line, line ∈ Text.lines outputToo.toList ↔ line ∈ Text.lines output.toList) →
        gitToo.changedFilesSince disk boundary exclude revisionToo deadlineToo =
          .ok (changes, laterToo) := by
  refine ⟨_, changedFilesSince_eq accepted answered, pairwise_reported,
    fun change => mem_reported_iff, ?_⟩
  intro gitToo revisionToo outputToo deadlineToo laterToo acceptedToo answeredToo same
  rw [changedFilesSince_eq acceptedToo answeredToo]
  have listed : ∀ change, change ∈ parseNameStatus outputToo ↔ change ∈ parseNameStatus output := by
    rcases same with changes | lines
    · exact changes
    · exact fun change => mem_parseNameStatus_congr lines
  rw [reported_congr listed]

end Report

/-- Git in a project where it prints one text, whatever it is asked. -/
def printing (text : String) : Git :=
  ⟨true, fun _ => ⟨text, "", 0, 0⟩⟩

/-- Lines in another order, one of them repeated, lead to the same report. -/
theorem changedFilesSince_exact_reordered :
    (printing "M\tb\nA\ta\nM\tb\n").changedFilesSince (Disk.blank.put [] "p" .directory)
        ⟨["p"], 8, by decide⟩ (Exclude.withUserRules []) "HEAD" (.start "diff" none) =
      (printing "A\ta\nM\tb\n").changedFilesSince (Disk.blank.put [] "p" .directory)
        ⟨["p"], 8, by decide⟩ (Exclude.withUserRules []) "HEAD" (.start "diff" none) := by
  have accepted : checkRevision "HEAD" = .ok () := by decide +kernel
  have answered : (printing "A\ta\nM\tb\n").ask (.changesSince "HEAD") (.start "diff" none) =
      (.ok "A\ta\nM\tb\n", .start "diff" none) := rfl
  obtain ⟨changes, inOrder, _, _, others⟩ := @changedFilesSince_exact _
    (Disk.blank.put [] "p" .directory) ⟨["p"], 8, by decide⟩ (Exclude.withUserRules []) _ _ _ _
    accepted answered
  have lines : Text.lines "A\ta\nM\tb\n".toList = ["A\ta".toList, "M\tb".toList] := by decide +kernel
  have reordered : Text.lines "M\tb\nA\ta\nM\tb\n".toList =
      ["M\tb".toList, "A\ta".toList, "M\tb".toList] := by decide +kernel
  rw [inOrder]
  refine others (printing "M\tb\nA\ta\nM\tb\n") "HEAD" "M\tb\nA\ta\nM\tb\n" _ _ accepted rfl
    (.inr fun line => ?_)
  simp only [lines, reordered, List.mem_cons, List.not_mem_nil]
  tauto

/-! ## What is lost -/

/-- In a project without links, a change whose path is relative and never leaves the root is reported
just if its file is not excluded and nothing is in the way of its path. What is lost besides are the
changes of files in a directory that has become a file, and of files whose path is too long. -/
theorem changedFilesSince_of_linkless {git : Git} {disk : Disk} {boundary : Boundary}
    {exclude : Exclude} {revision output : String} {deadline later : Deadline}
    (accepted : checkRevision revision = .ok ())
    (answered : git.ask (.changesSince revision) deadline = (.ok output, later))
    (stands : disk.find? boundary.root = some .directory)
    (linkless : ∀ location, Location.isWithin location boundary.root = true →
      ∀ target, disk.find? location ≠ some (.link target)) :
    ∃ changes, git.changedFilesSince disk boundary exclude revision deadline = .ok (changes, later) ∧
      ∀ change : FileChange, (Path.mk change.file).isAbsolute = false →
        (∀ top, top <+: (Path.mk change.file).components →
          Location.isWithin (Path.follow boundary.root top) boundary.root = true) →
        (change ∈ changes ↔
          change ∈ parseNameStatus output ∧ exclude.isExcluded change.file = false ∧
            boundary.root.Fits ∧
            Boundary.Unobstructed disk boundary.root (Path.mk change.file).components) := by
  refine ⟨_, changedFilesSince_eq accepted answered, fun change relative inside => ?_⟩
  have unlinked : ∀ top, top <+: (Path.mk change.file).components → ∀ target,
      disk.find? (Path.follow boundary.root top) ≠ some (.link target) :=
    fun top within => linkless _ (inside top within)
  rw [mem_reported_iff,
    Boundary.exists_validate_iff relative stands unlinked (inside _ List.prefix_rfl)]

/-- A project in which `a` is a file. -/
def fileDisk : Disk :=
  (Disk.blank.put [] "p" .directory).put ["p"] "a" (.file .empty 0)

theorem linkless_fileDisk (location : Location) (target : Path) :
    fileDisk.find? location ≠ some (.link target) := by
  rw [fileDisk, Disk.find?_put (by decide +kernel) (by decide +kernel),
    Disk.find?_put (by decide +kernel) (by decide +kernel)]
  split
  next => exact nofun
  next =>
    split
    next => exact nofun
    next => cases location <;> exact nofun

/-- Where the directory `a` has become a file, the file is reported and what was in the directory is
not. -/
theorem changedFilesSince_of_linkless_replaced :
    ∃ changes,
      (printing "A\ta\nD\ta/b.txt\n").changedFilesSince fileDisk ⟨["p"], 8, by decide⟩
          (Exclude.withUserRules []) "HEAD" (.start "diff" none) =
        .ok (changes, .start "diff" none) ∧
      ⟨.added, "a"⟩ ∈ changes ∧ ⟨.deleted, "a/b.txt"⟩ ∉ changes := by
  have accepted : checkRevision "HEAD" = .ok () := by decide +kernel
  have listed : (printing "A\ta\nD\ta/b.txt\n").ask (.changesSince "HEAD") (.start "diff" none) =
      (.ok "A\ta\nD\ta/b.txt\n", .start "diff" none) := rfl
  obtain ⟨changes, answered, reports⟩ := @changedFilesSince_of_linkless _ fileDisk
    ⟨["p"], 8, by decide⟩ (Exclude.withUserRules []) _ _ _ _ accepted listed (by decide +kernel)
    fun location _ => linkless_fileDisk location
  have inside : ∀ file ∈ ["a", "a/b.txt"], ∀ top ∈ (Path.mk file).components.inits,
      Location.isWithin (Path.follow ["p"] top) ["p"] = true := by decide +kernel
  refine ⟨changes, answered, ?_, ?_⟩
  · rw [reports ⟨.added, "a"⟩ (by decide +kernel)
      fun top within => inside "a" (by decide) top ((List.mem_inits _ _).2 within)]
    decide +kernel
  · rw [reports ⟨.deleted, "a/b.txt"⟩ (by decide +kernel)
      fun top within => inside "a/b.txt" (by decide) top ((List.mem_inits _ _).2 within)]
    decide +kernel

/-- The deletion is lost although its path is relative, is not excluded and never leaves the root, and
there is no link anywhere. -/
theorem changedFilesSince_loses_deletion :
    (∀ location target, fileDisk.find? location ≠ some (.link target)) ∧
      parseNameStatus "A\ta\nD\ta/b.txt\n" = [⟨.added, "a"⟩, ⟨.deleted, "a/b.txt"⟩] ∧
      (∀ change ∈ parseNameStatus "A\ta\nD\ta/b.txt\n",
        (Path.mk change.file).isAbsolute = false ∧
        (∀ top ∈ (Path.mk change.file).components.inits,
          Location.isWithin (Path.follow ["p"] top) ["p"] = true) ∧
        (Exclude.withUserRules []).isExcluded change.file = false) ∧
      (printing "A\ta\nD\ta/b.txt\n").changedFilesSince fileDisk ⟨["p"], 8, by decide⟩
          (Exclude.withUserRules []) "HEAD" (.start "diff" none) =
        .ok ([⟨.added, "a"⟩], .start "diff" none) :=
  ⟨linkless_fileDisk, by decide +kernel, by decide +kernel, by decide +kernel⟩

end Git

end SourceBaseline
