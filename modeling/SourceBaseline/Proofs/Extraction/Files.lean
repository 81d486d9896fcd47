import Mathlib.Data.List.Nodup
import SourceBaseline.Proofs.Extraction

/-!
# Files that are extracted side by side

Each file of a list comes to an outcome of its own, which the other files have no part in, and the
extraction is made up of these outcomes. `extract_file_by_file` says so of everything that may be
registered, also of what fails to parse some texts.
-/

set_option autoImplicit false

namespace SourceBaseline

namespace Registry

variable {α ε : Type} {registry : Registry α} {adapter : Adapter α ε} {disk other : Disk}
  {deadline : Deadline} {files : List TrackedFile} {file : TrackedFile} {symbols : List Symbol}
  {extraction : Extraction ε}

/-- What a file comes to by itself. -/
def outcome (registry : Registry α) (adapter : Adapter α ε) (disk : Disk) (file : TrackedFile) :
    Except (SkipReason ε) (List Symbol) :=
  registry.extractFile adapter disk file.relative file.absolute.route

/-- What is registered for a file returns these symbols for its text. -/
def Returns (registry : Registry α) (adapter : Adapter α ε) (disk : Disk) (file : TrackedFile)
    (returned : List Symbol) : Prop :=
  ∃ language text, registry.languageOf? file.relative = some language ∧
    (readSource disk file.absolute.route : Except (SkipReason ε) String) = .ok text ∧
    adapter language ⟨file.relative, text.toList⟩ = .ok returned

theorem outcome_eq_ok_iff :
    registry.outcome adapter disk file = .ok symbols ↔
      ∃ returned, registry.Returns adapter disk file returned ∧ symbols = Symbol.sort returned := by
  unfold outcome extractFile Returns
  cases registry.languageOf? file.relative with
  | none => simp
  | some language =>
      constructor
      · intro read
        obtain ⟨text, loaded, read⟩ := bind_eq_ok_iff.1 read
        obtain ⟨returned, found, same⟩ := bind_eq_ok_iff.1 read
        cases same
        refine ⟨returned, ⟨language, text, rfl, loaded, ?_⟩, rfl⟩
        cases parsed : adapter language ⟨file.relative, text.toList⟩ with
        | error cause =>
            rw [parsed] at found
            cases found
        | ok symbols =>
            rw [parsed] at found
            cases found
            rfl
      · rintro ⟨returned, ⟨_, text, ⟨⟩, loaded, found⟩, rfl⟩
        exact bind_eq_ok_iff.2 ⟨text, loaded, bind_eq_ok_iff.2 ⟨returned, by rw [found]; rfl, rfl⟩⟩

theorem found?_eq_some_iff {entry : String × List Symbol} :
    registry.found? adapter disk file = some entry ↔
      entry.1 = file.relative ∧ entry.2 ≠ [] ∧ registry.outcome adapter disk file = .ok entry.2 := by
  refine ⟨fun found => ?_, ?_⟩
  · obtain ⟨read, nonempty⟩ := exists_of_found? found
    exact ⟨relative_of_found? found, nonempty, read⟩
  · obtain ⟨relative, _ | ⟨first, rest⟩⟩ := entry
    · exact fun both => absurd rfl both.2.1
    · rintro ⟨rfl, _, read⟩
      unfold found?
      rw [show registry.extractFile adapter disk file.relative file.absolute.route =
        .ok (first :: rest) from read]

theorem extract_of_running (running : deadline.isExpired = false) :
    registry.extract adapter disk files deadline = .ok (registry.recorded adapter disk files) := by
  have checked : deadline.check = .ok () := by
    rw [Deadline.check, running]
    rfl
  unfold extract
  rw [checked]
  exact List.foldlM_pure

/-! ## Files of different paths -/

section Distinct

variable (distinct : (files.map TrackedFile.relative).Nodup)

include distinct

theorem find?_recorded_iff {path : String} :
    (registry.recorded adapter disk files).symbols.find? path = some symbols ↔ symbols ≠ [] ∧
      ∃ file ∈ files, file.relative = path ∧ registry.outcome adapter disk file = .ok symbols := by
  have apart : (files.filterMap (registry.found? adapter disk)).Pairwise
      fun left right => left.1 ≠ right.1 := by
    rw [List.pairwise_filterMap]
    refine (List.pairwise_map.1 distinct).imp fun differ left found right foundToo => ?_
    rwa [relative_of_found? found, relative_of_found? foundToo]
  rw [symbols_recorded]
  refine ⟨fun found => ?_, fun ⟨nonempty, file, member, same, read⟩ => ?_⟩
  · have inside := SortedMap.mem_of_mem_ofList (SortedMap.find?_eq_some_iff.1 found)
    obtain ⟨file, member, found⟩ := List.mem_filterMap.1 inside
    obtain ⟨same, nonempty, read⟩ := found?_eq_some_iff.1 found
    exact ⟨nonempty, file, member, same.symm, read⟩
  · exact SortedMap.find?_ofList_of_mem apart
      (List.mem_filterMap.2 ⟨file, member, found?_eq_some_iff.2 ⟨same.symm, nonempty, read⟩⟩)

theorem find?_recorded (member : file ∈ files) :
    (registry.recorded adapter disk files).symbols.find? file.relative = some symbols ↔
      symbols ≠ [] ∧ registry.outcome adapter disk file = .ok symbols := by
  rw [find?_recorded_iff distinct]
  refine and_congr_right fun _ => ⟨fun ⟨twin, inside, same, read⟩ => ?_, fun read => ?_⟩
  · exact List.inj_on_of_nodup_map distinct inside member same ▸ read
  · exact ⟨file, member, rfl, read⟩

theorem mem_skipped_recorded (member : file ∈ files) {reason : SkipReason ε} :
    (file.relative, reason) ∈ (registry.recorded adapter disk files).skipped ↔
      reason ≠ .unsupported ∧ registry.outcome adapter disk file = .error reason := by
  rw [skipped_recorded, List.mem_filterMap]
  refine ⟨fun ⟨twin, inside, skipped⟩ => ?_, fun ⟨supported, failed⟩ => ?_⟩
  · obtain ⟨same, supported, failed⟩ := skip?_eq_some_iff.1 skipped
    exact ⟨supported, List.inj_on_of_nodup_map distinct member inside same ▸ failed⟩
  · exact ⟨file, member, skip?_eq_some_iff.2 ⟨rfl, supported, failed⟩⟩

end Distinct

theorem sublist_skipped_recorded :
    ((registry.recorded adapter disk files).skipped.map Prod.fst).Sublist
      (files.map TrackedFile.relative) := by
  rw [skipped_recorded]
  induction files with
  | nil => exact .slnil
  | cons file rest ih =>
      rw [List.filterMap_cons]
      split
      next => exact ih.cons _
      next skip skipped =>
        rw [List.map_cons, List.map_cons, (skip?_eq_some_iff.1 skipped).1]
        exact ih.cons_cons _

/-- In time, files of different paths are all extracted, each to what it comes to by itself: the
symbols that were returned for it, in order, or the reason why it has none. -/
theorem extract_file_by_file (distinct : (files.map TrackedFile.relative).Nodup)
    (running : deadline.isExpired = false) :
    ∃ extraction, registry.extract adapter disk files deadline = .ok extraction ∧
      (∀ path symbols, extraction.symbols.find? path = some symbols ↔ symbols ≠ [] ∧
        ∃ file ∈ files, file.relative = path ∧ registry.outcome adapter disk file = .ok symbols) ∧
      (∀ file ∈ files, ∀ symbols, registry.outcome adapter disk file = .ok symbols →
        ∃ returned, registry.Returns adapter disk file returned ∧ symbols.Perm returned ∧
          symbols.Pairwise Symbol.Precedes ∧
          ∀ place : Symbol, symbols.filter (place.position · = .eq) =
            returned.filter (place.position · = .eq)) ∧
      (∀ path reason, (path, reason) ∈ extraction.skipped ↔ reason ≠ .unsupported ∧
        ∃ file ∈ files, file.relative = path ∧
          registry.outcome adapter disk file = .error reason) ∧
      (extraction.skipped.map Prod.fst).Sublist (files.map TrackedFile.relative) ∧
      ∀ file ∈ files, ∀ other : Disk,
        other.inspect file.absolute.route = disk.inspect file.absolute.route →
        ∃ alone, registry.extract adapter other [file] deadline = .ok alone ∧
          alone.symbols.find? file.relative = extraction.symbols.find? file.relative ∧
          ∀ reason, (file.relative, reason) ∈ alone.skipped ↔
            (file.relative, reason) ∈ extraction.skipped := by
  refine ⟨_, extract_of_running running, fun path symbols => find?_recorded_iff distinct, ?_, ?_,
    sublist_skipped_recorded, ?_⟩
  · intro file member symbols read
    obtain ⟨returned, returns, rfl⟩ := outcome_eq_ok_iff.1 read
    exact ⟨returned, returns, Symbol.perm_sort, Symbol.pairwise_sort, Symbol.filter_sort⟩
  · intro path reason
    rw [skipped_recorded, List.mem_filterMap]
    constructor
    · rintro ⟨file, member, skipped⟩
      obtain ⟨same, supported, failed⟩ := skip?_eq_some_iff.1 skipped
      exact ⟨supported, file, member, same.symm, failed⟩
    · rintro ⟨supported, file, member, rfl, failed⟩
      exact ⟨file, member, skip?_eq_some_iff.2 ⟨rfl, supported, failed⟩⟩
  · intro file member other holds
    have single : ([file].map TrackedFile.relative).Nodup := List.nodup_singleton _
    have same : registry.outcome adapter other file = registry.outcome adapter disk file :=
      extractFile_congr holds
    refine ⟨_, extract_of_running running, Option.ext fun symbols => ?_, fun reason => ?_⟩
    · rw [find?_recorded single (List.mem_singleton_self file), find?_recorded distinct member, same]
    · rw [mem_skipped_recorded single (List.mem_singleton_self file),
        mem_skipped_recorded distinct member, same]

/-- What is registered under `yes` finds two symbols in every text; under `no` no text can be parsed. -/
def pickyRegistry : Registry Bool := (empty.register ["yes"] true).register ["no"] false

def pickyAdapter : Adapter Bool String := fun parses source =>
  if parses then .ok [⟨0, none, none, source.file, .function, 2, "late", none⟩,
    ⟨0, none, none, source.file, .function, 1, "early", none⟩]
  else .error "unclosed"

/-- Two texts and a file that is no text. -/
def pickyDisk : Disk :=
  ((Disk.blank.put [] "a.no" (.file "text".toUTF8 0)).put [] "b.yes" (.file "text".toUTF8 0)).put []
    "c.yes" (.file ⟨#[255]⟩ 0)

def pickyFiles : List TrackedFile :=
  [⟨"a.no", ["a.no"]⟩, ⟨"b.yes", ["b.yes"]⟩, ⟨"c.yes", ["c.yes"]⟩, ⟨"d.none", ["d.none"]⟩]

theorem extract_file_by_file_picky :
    (pickyFiles.map TrackedFile.relative).Nodup ∧ (Deadline.start "check" none).isExpired = false ∧
      ∃ extraction, pickyRegistry.extract pickyAdapter pickyDisk pickyFiles (.start "check" none) =
          .ok extraction ∧
        extraction.symbols.find? "b.yes" =
          some [⟨0, none, none, "b.yes", .function, 1, "early", none⟩,
            ⟨0, none, none, "b.yes", .function, 2, "late", none⟩] ∧
        ("a.no", .parseFailed "unclosed") ∈ extraction.skipped ∧
        ("c.yes", .notText) ∈ extraction.skipped ∧
        ∀ reason, ("d.none", reason) ∉ extraction.skipped := by
  have distinct : (pickyFiles.map TrackedFile.relative).Nodup := by decide
  have running : (Deadline.start "check" none).isExpired = false := rfl
  obtain ⟨extraction, extracted, found, _, skipped, _⟩ :=
    @extract_file_by_file _ _ pickyRegistry pickyAdapter pickyDisk _ _ distinct running
  refine ⟨distinct, running, extraction, extracted, ?_, ?_, ?_, ?_⟩
  · have returns : pickyRegistry.Returns pickyAdapter pickyDisk ⟨"b.yes", ["b.yes"]⟩
        [⟨0, none, none, "b.yes", .function, 2, "late", none⟩,
          ⟨0, none, none, "b.yes", .function, 1, "early", none⟩] :=
      ⟨true, "text", by decide +kernel, by decide +kernel, rfl⟩
    refine (found _ _).2 ⟨by decide, ⟨"b.yes", ["b.yes"]⟩, by decide, rfl,
      outcome_eq_ok_iff.2 ⟨_, returns, ?_⟩⟩
    have after : (Symbol.position ⟨0, none, none, "b.yes", .function, 2, "late", none⟩
        ⟨0, none, none, "b.yes", .function, 1, "early", none⟩).isLE = false := by decide +kernel
    simp [Symbol.sort, List.mergeSort, after]
  · exact (skipped _ _).2 ⟨by decide, ⟨"a.no", ["a.no"]⟩, by decide, rfl, by decide +kernel⟩
  · exact (skipped _ _).2 ⟨by decide, ⟨"c.yes", ["c.yes"]⟩, by decide, rfl, by decide +kernel⟩
  · intro reason member
    obtain ⟨supported, file, inside, path, failed⟩ := (skipped _ _).1 member
    obtain rfl : file = ⟨"d.none", ["d.none"]⟩ :=
      List.inj_on_of_nodup_map distinct inside (by decide) path
    have unsupported : pickyRegistry.outcome pickyAdapter pickyDisk ⟨"d.none", ["d.none"]⟩ =
        .error .unsupported := by decide +kernel
    cases unsupported.symm.trans failed
    exact supported rfl

end Registry

end SourceBaseline
