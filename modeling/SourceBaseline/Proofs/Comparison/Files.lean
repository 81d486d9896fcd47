import Mathlib.Data.List.Sort
import Mathlib.Data.String.Basic
import Mathlib.Order.Compare
import SourceBaseline.Comparison

/-!
# What a comparison of files reports

`FileChange.Altered` says what happened to a file from the hash that one map holds for it and the hash
that the other one holds. A comparison lists exactly these changes, one for each file on which the maps
differ, in the strict order of files. The comparison the other way round lists the reverse changes.
-/

set_option autoImplicit false

namespace SourceBaseline

/-- What happened to a file, seen in the other direction of time. -/
def FileChangeKind.reverse : FileChangeKind → FileChangeKind
  | .added => .deleted
  | .deleted => .added
  | .modified => .modified

namespace FileChange

/-- Changes are listed by file, and those of one file by kind. -/
def Before (left right : FileChange) : Prop :=
  left.file < right.file ∨ left.file = right.file ∧ left.kind.rank < right.kind.rank

variable {change left middle right : FileChange} {changes : List FileChange}

theorem order_eq_compareLex : order = compareLex (compareOn (·.file)) (compareOn (·.kind.rank)) :=
  rfl

instance : Std.TransCmp order := by
  rw [order_eq_compareLex]
  infer_instance

theorem eq_or_before_of_order (ordered : (order left right).isLE = true) :
    left = right ∨ Before left right := by
  rw [Ordering.isLE_iff_eq_lt_or_eq_eq] at ordered
  rcases ordered with less | same
  · simp only [order, Ordering.then_eq_lt, compare_lt_iff_lt, compare_eq_iff_eq] at less
    exact .inr less
  · simp only [order, Ordering.then_eq_eq, compare_eq_iff_eq] at same
    obtain ⟨leftKind, leftFile⟩ := left
    obtain ⟨rightKind, rightFile⟩ := right
    obtain ⟨rfl, ranks⟩ := same
    have kinds : leftKind = rightKind := by
      cases leftKind <;> cases rightKind <;> simp [FileChangeKind.rank] at ranks ⊢
    exact .inl (kinds ▸ rfl)

theorem Before.trans (first : Before left middle) (second : Before middle right) :
    Before left right := by
  rcases first with less | ⟨file, less⟩
  · rcases second with lessToo | ⟨fileToo, _⟩
    · exact .inl (lt_trans less lessToo)
    · exact .inl (fileToo ▸ less)
  · rcases second with lessToo | ⟨fileToo, lessToo⟩
    · exact .inl (file ▸ lessToo)
    · exact .inr ⟨file.trans fileToo, lt_trans less lessToo⟩

theorem not_before_self : ¬ Before change change := by
  rintro (less | ⟨_, less⟩)
  · exact lt_irrefl _ less
  · exact lt_irrefl _ less

instance : Std.Irrefl Before where
  irrefl _ := not_before_self

instance : Std.Antisymm Before where
  antisymm _ _ less greater := (not_before_self (less.trans greater)).elim

theorem pairwise_sort : (sort changes).Pairwise fun left right => left = right ∨ Before left right := by
  refine List.Pairwise.imp eq_or_before_of_order ?_
  apply List.pairwise_mergeSort
  · intro left middle right first second
    exact Std.TransCmp.isLE_trans first second
  · intro left right
    have swapped : order right left = (order left right).swap := Std.OrientedCmp.eq_swap
    rw [swapped]
    cases order left right <;> rfl

/-- What happened to a file that had one hash, if any, and has another one now, if any. -/
inductive Altered : Option String → Option String → FileChangeKind → Prop
  | added {hash} : Altered none (some hash) .added
  | deleted {hash} : Altered (some hash) none .deleted
  | modified {before now} : before ≠ now → Altered (some before) (some now) .modified

def reverse (change : FileChange) : FileChange :=
  ⟨change.kind.reverse, change.file⟩

@[simp] theorem reverse_reverse (change : FileChange) : change.reverse.reverse = change := by
  obtain ⟨kind, file⟩ := change
  cases kind <;> rfl

section Altered

variable {before now : Option String} {kind : FileChangeKind}

theorem Altered.reverse (altered : Altered before now kind) : Altered now before kind.reverse := by
  cases altered with
  | added => exact .deleted
  | deleted => exact .added
  | modified different => exact .modified different.symm

theorem altered_added_iff :
    Altered before now .added ↔ before = none ∧ ∃ hash, now = some hash := by
  constructor
  · rintro ⟨⟩
    exact ⟨rfl, _, rfl⟩
  · rintro ⟨rfl, hash, rfl⟩
    exact .added

theorem altered_deleted_iff :
    Altered before now .deleted ↔ (∃ hash, before = some hash) ∧ now = none := by
  constructor
  · rintro ⟨⟩
    exact ⟨⟨_, rfl⟩, rfl⟩
  · rintro ⟨⟨hash, rfl⟩, rfl⟩
    exact .deleted

theorem altered_modified_iff :
    Altered before now .modified ↔
      ∃ previous hash, before = some previous ∧ now = some hash ∧ previous ≠ hash := by
  constructor
  · rintro ⟨⟩
    exact ⟨_, _, rfl, rfl, ‹_›⟩
  · rintro ⟨previous, hash, rfl, rfl, different⟩
    exact .modified different

theorem exists_altered_iff : (∃ kind, Altered before now kind) ↔ before ≠ now := by
  constructor
  · rintro ⟨kind, altered⟩
    cases altered with
    | added => exact nofun
    | deleted => exact nofun
    | modified different => exact fun same => different (Option.some.inj same)
  · intro different
    cases before with
    | none =>
        cases now with
        | none => exact absurd rfl different
        | some hash => exact ⟨_, .added⟩
    | some previous =>
        cases now with
        | none => exact ⟨_, .deleted⟩
        | some hash => exact ⟨_, .modified fun same => different (congrArg some same)⟩

end Altered

variable {old new : SortedMap String String}

theorem fileChange?_eq_some_iff {file hash : String} :
    fileChange? old file hash = some change ↔
      change.file = file ∧ Altered (old.find? file) (some hash) change.kind := by
  obtain ⟨kind, other⟩ := change
  rw [fileChange?]
  cases old.find? file with
  | none =>
      constructor
      · rintro ⟨⟩
        exact ⟨rfl, .added⟩
      · rintro ⟨rfl, ⟨⟩⟩
        rfl
  | some previous =>
      dsimp only
      split
      next same =>
        refine iff_of_false nofun ?_
        rintro ⟨_, altered⟩
        cases altered with
        | modified different => exact different same
      next different =>
        constructor
        · rintro ⟨⟩
          exact ⟨rfl, .modified different⟩
        · rintro ⟨rfl, ⟨⟩⟩
          rfl

/-- A change is listed if it leads from what one map holds for its file to what the other one holds. -/
theorem mem_compareChecksums_iff :
    change ∈ compareChecksums old new ↔
      Altered (old.find? change.file) (new.find? change.file) change.kind := by
  rw [compareChecksums, FileChange.sort, (List.mergeSort_perm _ _).mem_iff, List.mem_append,
    List.mem_filterMap, List.mem_map]
  constructor
  · rintro (⟨⟨file, hash⟩, member, changed⟩ | ⟨file, member, rfl⟩)
    · obtain ⟨rfl, altered⟩ := fileChange?_eq_some_iff.1 changed
      rw [SortedMap.find?_eq_some_iff.2 member]
      exact altered
    · obtain ⟨recorded, gone⟩ := List.mem_filter.1 member
      obtain ⟨hash, found⟩ := SortedMap.mem_keys_iff.1 recorded
      have gone : new.find? file = none := by simpa [SortedMap.contains] using gone
      rw [found, gone]
      exact .deleted
  · intro altered
    cases now : new.find? change.file with
    | some hash =>
        rw [now] at altered
        exact .inl ⟨(change.file, hash), SortedMap.find?_eq_some_iff.1 now,
          fileChange?_eq_some_iff.2 ⟨rfl, altered⟩⟩
    | none =>
        obtain ⟨kind, file⟩ := change
        rw [now] at altered
        generalize before : old.find? file = stood at altered
        cases altered
        refine .inr ⟨file, List.mem_filter.2 ⟨SortedMap.mem_keys_iff.2 ⟨_, before⟩, ?_⟩, rfl⟩
        simp [SortedMap.contains, now]

theorem deleted_mem_compareChecksums_iff {file : String} :
    ⟨.deleted, file⟩ ∈ compareChecksums old new ↔ file ∈ old.keys ∧ new.find? file = none := by
  rw [mem_compareChecksums_iff, SortedMap.mem_keys_iff]
  exact altered_deleted_iff

/-- No file is listed twice, so the order of files is strict. -/
theorem pairwise_compareChecksums :
    (compareChecksums old new).Pairwise fun left right => left.file < right.file := by
  have different : (compareChecksums old new).Pairwise fun left right => left.file ≠ right.file := by
    rw [compareChecksums, sort, (List.mergeSort_perm _ _).pairwise_iff fun apart => Ne.symm apart]
    refine List.pairwise_append.2 ⟨?_, ?_, ?_⟩
    · rw [List.pairwise_filterMap]
      refine new.sorted.imp ?_
      intro left right less first firstChanged second secondChanged
      rw [(fileChange?_eq_some_iff.1 firstChanged).1, (fileChange?_eq_some_iff.1 secondChanged).1]
      exact ne_of_lt less
    · rw [List.pairwise_map]
      exact ((List.pairwise_map.2 old.sorted).filter _).imp ne_of_lt
    · intro left changed right removed same
      obtain ⟨⟨file, hash⟩, member, changed⟩ := List.mem_filterMap.1 changed
      obtain ⟨gone, kept, rfl⟩ := List.mem_map.1 removed
      obtain rfl : gone = file := same.symm.trans (fileChange?_eq_some_iff.1 changed).1
      have absent : new.find? gone = none := by
        simpa [SortedMap.contains] using (List.mem_filter.1 kept).2
      cases absent.symm.trans (SortedMap.find?_eq_some_iff.2 member)
  refine (pairwise_sort.and different).imp ?_
  rintro left right ⟨rfl | less | ⟨same, _⟩, apart⟩
  · exact absurd rfl apart
  · exact less
  · exact absurd same apart

/-- The comparison the other way round tells of the same files, in the other direction of time. -/
theorem compareChecksums_swap :
    compareChecksums new old = (compareChecksums old new).map reverse := by
  have sorted : (compareChecksums new old).Pairwise Before := pairwise_compareChecksums.imp .inl
  have sortedToo : ((compareChecksums old new).map reverse).Pairwise Before :=
    List.pairwise_map.2 (pairwise_compareChecksums.imp .inl)
  refine sorted.eq_of_mem_iff sortedToo fun change => ?_
  rw [List.mem_map, mem_compareChecksums_iff]
  constructor
  · intro altered
    exact ⟨change.reverse, mem_compareChecksums_iff.2 altered.reverse, change.reverse_reverse⟩
  · rintro ⟨other, member, rfl⟩
    exact (mem_compareChecksums_iff.1 member).reverse

theorem compareChecksums_eq_nil_iff : compareChecksums old new = [] ↔ old = new := by
  constructor
  · intro none
    apply SortedMap.ext_find?
    intro file
    by_contra different
    obtain ⟨kind, altered⟩ := exists_altered_iff.2 different
    have listed : ⟨kind, file⟩ ∈ compareChecksums old new := mem_compareChecksums_iff.2 altered
    rw [none] at listed
    cases listed
  · rintro rfl
    apply List.eq_nil_iff_forall_not_mem.2
    intro change member
    exact exists_altered_iff.1 ⟨_, mem_compareChecksums_iff.1 member⟩ rfl

theorem compareChecksums_self (files : SortedMap String String) : compareChecksums files files = [] :=
  compareChecksums_eq_nil_iff.2 rfl

/-- The changes stand in strict order of files. A file that is only in the new map is added, one that is
only in the old map is deleted, one that has another hash is modified, and no other file is listed. So
nothing is listed just if the maps are equal, and the comparison the other way round takes additions
for deletions. -/
theorem compareChecksums_exact (old new : SortedMap String String) :
    (compareChecksums old new).Pairwise (fun left right => left.file < right.file) ∧
    (∀ file, ⟨.added, file⟩ ∈ compareChecksums old new ↔
      old.find? file = none ∧ ∃ hash, new.find? file = some hash) ∧
    (∀ file, ⟨.deleted, file⟩ ∈ compareChecksums old new ↔
      (∃ hash, old.find? file = some hash) ∧ new.find? file = none) ∧
    (∀ file, ⟨.modified, file⟩ ∈ compareChecksums old new ↔
      ∃ before now, old.find? file = some before ∧ new.find? file = some now ∧ before ≠ now) ∧
    (∀ file, (∃ kind, ⟨kind, file⟩ ∈ compareChecksums old new) ↔
      old.find? file ≠ new.find? file) ∧
    (compareChecksums old new = [] ↔ old = new) ∧
    compareChecksums new old = (compareChecksums old new).map reverse := by
  simp only [mem_compareChecksums_iff]
  refine ⟨pairwise_compareChecksums, fun file => altered_added_iff, fun file => altered_deleted_iff,
    fun file => altered_modified_iff, fun file => exists_altered_iff, compareChecksums_eq_nil_iff,
    compareChecksums_swap⟩

end FileChange

end SourceBaseline
