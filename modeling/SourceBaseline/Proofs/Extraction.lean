import Mathlib.Data.String.Basic
import Mathlib.Order.Compare
import SourceBaseline.Proofs.Disk.Listing
import SourceBaseline.Proofs.Language
import SourceBaseline.Proofs.Snapshot

/-!
# What is extracted from one file

A file that is listed is read once: either its symbols are recorded, in order and under its own path,
or it is skipped with a reason. Its path alone decides where it is read.
-/

set_option autoImplicit false

namespace SourceBaseline

namespace Symbol

variable {left right : Symbol} {symbols : List Symbol}

/-- Symbols stand in order by line, then by column, then by name. -/
def Precedes (left right : Symbol) : Prop :=
  left.line < right.line ∨ left.line = right.line ∧
    (left.column < right.column ∨ left.column = right.column ∧ left.name ≤ right.name)

theorem position_eq_compareLex : position =
    compareLex (compareOn (·.line.toNat)) (compareLex (compareOn (·.column.toNat)) (compareOn (·.name))) :=
  rfl

instance : Std.TransCmp position := by
  rw [position_eq_compareLex]
  infer_instance

theorem precedes_of_position (ordered : (position left right).isLE = true) : Precedes left right := by
  rw [Ordering.isLE_iff_eq_lt_or_eq_eq] at ordered
  simp only [position, Ordering.then_eq_lt, Ordering.then_eq_eq, compare_lt_iff_lt, compare_eq_iff_eq,
    UInt32.toNat_inj, ← UInt32.lt_iff_toNat_lt] at ordered
  rcases ordered with (less | ⟨line, less | ⟨column, less⟩⟩) | ⟨line, column, name⟩
  · exact .inl less
  · exact .inr ⟨line, .inl less⟩
  · exact .inr ⟨line, .inr ⟨column, le_of_lt less⟩⟩
  · exact .inr ⟨line, .inr ⟨column, le_of_eq name⟩⟩

theorem position_total (left right : Symbol) :
    ((position left right).isLE || (position right left).isLE) = true := by
  rw [Bool.or_eq_true]
  cases ordered : position left right with
  | lt => exact .inl rfl
  | eq => exact .inl rfl
  | gt => exact .inr (Ordering.isLE_of_eq_lt (Std.OrientedCmp.gt_iff_lt.1 ordered))

theorem pairwise_sort : (sort symbols).Pairwise Precedes :=
  (List.pairwise_mergeSort (fun _ _ _ => Std.TransCmp.isLE_trans) position_total _).imp
    precedes_of_position

theorem perm_sort : (sort symbols).Perm symbols :=
  List.mergeSort_perm _ _

/-- Symbols with one line, column and name stay in the order in which they were found. -/
theorem filter_sort (place : Symbol) :
    (sort symbols).filter (position place · = .eq) = symbols.filter (position place · = .eq) := by
  have level : (symbols.filter (position place · = .eq)).Pairwise fun left right =>
      (position left right).isLE = true := by
    refine List.pairwise_of_forall_mem_list fun left member right memberToo => ?_
    have same := of_decide_eq_true (List.mem_filter.1 member).2
    have sameToo := of_decide_eq_true (List.mem_filter.1 memberToo).2
    rw [Std.TransCmp.eq_trans (Std.OrientedCmp.eq_symm same) sameToo]
    rfl
  have kept := (List.sublist_mergeSort (fun _ _ _ => Std.TransCmp.isLE_trans) position_total level
    List.filter_sublist).filter (position place · = .eq)
  rw [List.filter_filter, List.filter_congr fun _ _ => Bool.and_self _] at kept
  exact (kept.eq_of_length (perm_sort.filter _).length_eq.symm).symm

end Symbol

theorem Extractor.ordered_of_extractFile {extractor : Extractor} {disk : Disk} {relative : String}
    {absolute : Route} {symbols : List Symbol}
    (read : extractor.extractFile disk relative absolute = .ok symbols) :
    symbols.Pairwise Symbol.Precedes ∧ ∀ symbol ∈ symbols, symbol.file = relative := by
  unfold extractFile Registry.extractFile at read
  split at read
  next => cases read
  next language _ =>
    obtain ⟨text, _, read⟩ := bind_eq_ok_iff.1 read
    cases read
    refine ⟨Symbol.pairwise_sort, fun symbol member => ?_⟩
    exact Language.file_of_mem_symbols (Symbol.perm_sort.mem_iff.1 member)

namespace Registry

variable {α ε : Type} {registry : Registry α} {adapter : Adapter α ε} {disk : Disk}
  {deadline : Deadline} {files : List TrackedFile} {extraction : Extraction ε}

theorem exists_of_found? {file : TrackedFile} {entry : String × List Symbol}
    (found : registry.found? adapter disk file = some entry) :
    registry.extractFile adapter disk file.relative file.absolute.route = .ok entry.2 ∧
      entry.2 ≠ [] := by
  unfold found? at found
  split at found
  next first rest read =>
    cases found
    exact ⟨read, List.cons_ne_nil first rest⟩
  next => cases found

/-- Why a file is left out, under its path, if anything is registered for it. -/
def skip? (registry : Registry α) (adapter : Adapter α ε) (disk : Disk) (file : TrackedFile) :
    Option (String × SkipReason ε) :=
  match registry.extractFile adapter disk file.relative file.absolute.route with
  | .ok _ => none
  | .error .unsupported => none
  | .error reason => some (file.relative, reason)

theorem skip?_eq_some_iff {file : TrackedFile} {skip : String × SkipReason ε} :
    registry.skip? adapter disk file = some skip ↔ skip.1 = file.relative ∧
      skip.2 ≠ .unsupported ∧
      registry.extractFile adapter disk file.relative file.absolute.route = .error skip.2 := by
  obtain ⟨relative, reason⟩ := skip
  unfold skip?
  cases registry.extractFile adapter disk file.relative file.absolute.route with
  | ok symbols => simp
  | error other => cases other <;> grind

theorem skipped_record {file : TrackedFile} :
    (extraction.record file.relative
        (registry.extractFile adapter disk file.relative file.absolute.route)).skipped =
      match registry.skip? adapter disk file with
      | some skip => extraction.skipped ++ [skip]
      | none => extraction.skipped := by
  unfold skip? Extraction.record
  cases registry.extractFile adapter disk file.relative file.absolute.route with
  | error reason => cases reason <;> rfl
  | ok symbols => cases symbols <;> rfl

/-- The files that are left out stand in the order in which they were given. -/
theorem skipped_recorded :
    (registry.recorded adapter disk files).skipped =
      files.filterMap (registry.skip? adapter disk) := by
  calc (registry.recorded adapter disk files).skipped
    _ = (files.filterMap (registry.skip? adapter disk)).foldl
          (fun skipped skip => skipped ++ [skip]) [] := by
        rw [List.foldl_filterMap]
        refine (List.foldl_hom Extraction.skipped fun extraction file => ?_).symm
        rw [skipped_record]
        cases registry.skip? adapter disk file <;> rfl
    _ = files.filterMap (registry.skip? adapter disk) := by
        rw [List.foldl_append_eq_append, List.nil_append, ← List.flatMap_def, List.flatMap_singleton']

theorem skipped_of_extract
    (extracted : registry.extract adapter disk files deadline = .ok extraction)
    {skip : String × SkipReason ε} (member : skip ∈ extraction.skipped) :
    ∃ file ∈ files, skip.1 = file.relative ∧
      registry.extractFile adapter disk file.relative file.absolute.route = .error skip.2 := by
  rw [eq_recorded_of_extract extracted, skipped_recorded] at member
  obtain ⟨file, inside, skipped⟩ := List.mem_filterMap.1 member
  obtain ⟨relative, _, failed⟩ := skip?_eq_some_iff.1 skipped
  exact ⟨file, inside, relative, failed⟩

theorem found_of_extract
    (extracted : registry.extract adapter disk files deadline = .ok extraction)
    {entry : String × List Symbol} (member : entry ∈ extraction.symbols.entries) :
    ∃ file ∈ files, registry.found? adapter disk file = some entry := by
  rw [symbols_of_extract extracted] at member
  exact List.mem_filterMap.1 (SortedMap.mem_of_mem_ofList member)

end Registry

namespace Walk

variable {walk : Walk} {disk : Disk} {deadline : Deadline} {files : List TrackedFile}

theorem path_congr {root first second : List String} (inner : first ≠ []) (innerToo : second ≠ [])
    (same : relativePath first = relativePath second) :
    Location.path (root ++ first) = Location.path (root ++ second) := by
  unfold Location.path relativePath at *
  by_cases top : root = []
  · rw [top, List.nil_append, List.nil_append, same]
  · rw [String.intercalate_append_of_ne_nil top inner, String.intercalate_append_of_ne_nil top innerToo,
      same]

/-- The path of a listed file alone decides where it is read. -/
theorem eq_of_relative (listed : walk.enumerate disk deadline = .ok files) {file other : TrackedFile}
    (member : file ∈ files) (memberToo : other ∈ files) (same : file.relative = other.relative) :
    file = other := by
  obtain ⟨names, _, inside, _, tracked⟩ := tracked?_of_mem_visit (mem_of_mapM listed member)
  obtain ⟨names', _, insideToo, _, trackedToo⟩ := tracked?_of_mem_visit (mem_of_mapM listed memberToo)
  have relative := relative_of_tracked? tracked
  have relativeToo := relative_of_tracked? trackedToo
  have place := (validate_of_tracked? tracked).2
  have placeToo := (validate_of_tracked? trackedToo).2
  rw [path_congr (Disk.mem_below_iff.1 inside).1 (Disk.mem_below_iff.1 insideToo).1
    (relative.symm.trans (same.trans relativeToo)), placeToo] at place
  obtain ⟨_, _⟩ := file
  obtain ⟨_, _⟩ := other
  cases place
  cases same
  rfl

end Walk

end SourceBaseline
