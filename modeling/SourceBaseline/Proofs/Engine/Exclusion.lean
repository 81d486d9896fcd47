import SourceBaseline.Proofs.Engine.Stability
import SourceBaseline.Proofs.Exclude

/-!
# More exclude rules

The walk goes past an excluded directory with everything in it, and baselines lose the files whose own
paths are excluded. A file is `Shadowed` where the two part: a directory above it is excluded and its
own path is not. With other rules, exactly the shadowed files are reported as deleted. Rules for a
subtree exclude what lies below whatever they exclude, so they shadow nothing.
-/

set_option autoImplicit false

namespace SourceBaseline

namespace Exclude

variable {names shorter rest : List String}

theorem dropLeading_relativePath (named : ∀ name ∈ names, IsName name) (inner : names ≠ []) :
    Text.dropLeading ['.', '/'] (Walk.relativePath names).toList =
      (Walk.relativePath names).toList := by
  have plain : ¬ ['.', '/'].isPrefixOf (Walk.relativePath names).toList = true := by
    intro marked
    obtain ⟨more, same⟩ := List.isPrefixOf_iff_prefix.1 marked
    have pieces := Location.pieces_intercalate named inner
    rw [Walk.relativePath] at same
    rw [← same, show ['.', '/'] ++ more = ['.'] ++ '/' :: more from rfl, Text.pieces_append] at pieces
    obtain ⟨first, others, rfl⟩ := List.exists_cons_of_ne_nil inner
    have here : ['.'] = first.toList := (List.cons.inj pieces).1
    exact (named first (.head _)).notHere (String.toList_injective here.symm)
  rw [Text.dropLeading, dif_neg fun both => plain both.2]

theorem pathBytes_relativePath (named : ∀ name ∈ names, IsName name) (inner : names ≠ []) :
    pathBytes (Walk.relativePath names) =
      (Walk.relativePath names).toList.flatMap String.utf8EncodeChar := by
  rw [pathBytes, dropLeading_relativePath named inner]

theorem pathBytes_below (named : ∀ name ∈ shorter ++ rest, IsName name) (inner : shorter ≠ [])
    (deeper : rest ≠ []) :
    ∃ bytes, pathBytes (Walk.relativePath (shorter ++ rest)) =
      pathBytes (Walk.relativePath shorter) ++ slash :: bytes := by
  rw [pathBytes_relativePath named (by simp [inner]),
    pathBytes_relativePath (fun name member => named name (List.mem_append_left _ member)) inner]
  refine ⟨("/".intercalate rest).toList.flatMap String.utf8EncodeChar, ?_⟩
  rw [Walk.relativePath, String.intercalate_append_of_ne_nil inner deeper]
  simp only [String.toList_append, List.flatMap_append, Walk.relativePath, List.append_assoc]
  rfl

end Exclude

theorem Walk.relativePath_injective {names others : List String}
    (named : ∀ name ∈ names, IsName name) (namedToo : ∀ name ∈ others, IsName name)
    (inner : names ≠ []) (innerToo : others ≠ []) (same : relativePath names = relativePath others) :
    names = others := by
  have pieces := congrArg (fun text => Text.pieces '/' text.toList) same
  simp only [relativePath, Location.pieces_intercalate named inner,
    Location.pieces_intercalate namedToo innerToo] at pieces
  exact List.map_injective_iff.2 (fun _ _ => String.toList_injective) pieces

namespace Engine

variable {engine other : Engine} {host later : Host} {names : List String} {entry : Entry}
  {file : String}

/-! ## Shadowed files -/

/-- One engine tracks the file. The other excludes a directory above it, but not the file itself. -/
def Shadowed (engine other : Engine) (disk : Disk) (file : String) : Prop :=
  ∃ names entry tracked, (names, entry) ∈ engine.walk.kept disk ∧
    engine.walk.tracked? disk names entry = some tracked ∧ file = Walk.relativePath names ∧
    other.exclude.isExcluded file = false ∧ ¬ other.walk.Keeps names

/-- Only a rule that is not for a subtree, and that is new, can shadow a file. -/
theorem exists_rule_of_shadowed {disk : Disk}
    (named : ∀ names entry, (names, entry) ∈ engine.walk.kept disk → ∀ name ∈ names, IsName name)
    (shadowed : engine.Shadowed other disk file) :
    ∃ rule ∈ other.exclude.rules, rule ∉ engine.exclude.rules ∧ rule.2.isSubtree = false := by
  obtain ⟨names, entry, tracked, kept, _, rfl, alone, pruned⟩ := shadowed
  obtain ⟨_, _, _, keeps⟩ := Walk.mem_kept_iff.1 kept
  simp only [Walk.Keeps, not_forall, Bool.not_eq_false] at pruned
  obtain ⟨shorter, ⟨rest, rfl⟩, inner, excluded⟩ := pruned
  obtain ⟨rule, member, accepted⟩ := Exclude.isExcluded_iff.1 excluded
  refine ⟨rule, member, ?_, ?_⟩
  · intro old
    have before := keeps shorter ⟨rest, rfl⟩ inner
    exact absurd (Exclude.isExcluded_iff.2 ⟨rule, old, accepted⟩) (by simpa [walk] using before)
  · apply Bool.eq_false_iff.2
    intro subtree
    have deeper : rest ≠ [] := by
      rintro rfl
      rw [List.append_nil, show other.exclude.isExcluded _ = true from excluded] at alone
      cases alone
    obtain ⟨bytes, below⟩ := Exclude.pathBytes_below (named _ entry kept) inner deeper
    have whole := ExcludeRule.reachesBelow_of_isSubtree subtree _ bytes accepted
    rw [← below] at whole
    have excludedToo : other.exclude.isExcluded (Walk.relativePath (shorter ++ rest)) = true :=
      Exclude.isExcluded_iff.2 ⟨rule, member, whole⟩
    rw [excludedToo] at alone
    cases alone

/-! ## Other rules after baselines were written -/

section Written

variable {expectation : Expectation} {outcome : Outcome BaselineSummary}
  (beside : engine.SideBySide host engine.memory) (aside : engine.Aside host.disk)
  (ran : engine.replaceBaselines expectation host = (outcome, later))
  (boundary : other.boundary = engine.boundary)

include beside aside ran boundary

theorem tracked?_of_rules (kept : (names, entry) ∈ engine.walk.kept host.disk)
    (alone : other.exclude.isExcluded (Walk.relativePath names) = false) :
    other.walk.tracked? later.disk names entry = engine.walk.tracked? host.disk names entry := by
  obtain ⟨inner, _, _, keeps⟩ := Walk.mem_kept_iff.1 kept
  have before : engine.exclude.isExcluded (Walk.relativePath names) = false :=
    keeps names List.prefix_rfl inner
  rw [tracked?_of_kept beside aside ran kept]
  simp only [Walk.tracked?, walk, boundary, alone, before]

theorem mem_listed_of_rules {tracked : TrackedFile}
    (kept : (names, entry) ∈ engine.walk.kept host.disk)
    (found : engine.walk.tracked? host.disk names entry = some tracked)
    (alone : other.exclude.isExcluded (Walk.relativePath names) = false) :
    tracked ∈ other.walk.listed later.disk ∨
      engine.Shadowed other host.disk (Walk.relativePath names) := by
  by_cases keeps : other.walk.Keeps names
  · obtain ⟨inner, _, leaf, _⟩ := Walk.mem_kept_iff.1 kept
    have stands := stands_of_kept beside aside ran kept
    rw [← boundary] at stands
    refine .inl (Walk.mem_listed_iff_kept.2
      ⟨names, entry, Walk.mem_kept_iff.2 ⟨inner, stands, leaf, keeps⟩, ?_⟩)
    rw [tracked?_of_rules beside aside ran boundary kept alone, found]
  · exact .inr ⟨names, entry, tracked, kept, found, rfl, alone, keeps⟩

omit boundary in
theorem isName_of_kept (named : later.disk.Named) (names : List String) (entry : Entry)
    (kept : (names, entry) ∈ engine.walk.kept host.disk) : ∀ name ∈ names, IsName name :=
  fun name inside => named.of_stands (stands_of_kept beside aside ran kept) name
    (List.mem_append_right _ inside)

theorem gone_iff_shadowed (named : later.disk.Named) :
    (file ∈ ((engine.hashes host.disk).filter fun file _ => !other.exclude.isExcluded file).keys ∧
        (other.hashes later.disk).find? file = none) ↔ engine.Shadowed other host.disk file := by
  have recorded : ∀ {names entry tracked}, (names, entry) ∈ engine.walk.kept host.disk →
      engine.walk.tracked? host.disk names entry = some tracked →
      tracked ∈ engine.walk.listed host.disk := fun kept found =>
    Walk.mem_listed_iff_kept.2 ⟨_, _, kept, found⟩
  have keys : file ∈ ((engine.hashes host.disk).filter fun file _ =>
        !other.exclude.isExcluded file).keys ↔
      (∃ tracked ∈ engine.walk.listed host.disk, tracked.relative = file) ∧
        other.exclude.isExcluded file = false := by
    rw [SortedMap.mem_keys_iff]
    simp only [SortedMap.find?_filter, Option.filter_eq_some_iff, exists_and_right,
      Bool.not_eq_true', hashes, hashFiles]
    refine and_congr_left' ?_
    rw [← Option.isSome_iff_exists, ← Option.ne_none_iff_isSome, Ne,
      SortedMap.find?_ofList_eq_none_iff]
    simp
  have absent : (other.hashes later.disk).find? file = none ↔
      ∀ tracked ∈ other.walk.listed later.disk, tracked.relative ≠ file := by
    rw [hashes, hashFiles, SortedMap.find?_ofList_eq_none_iff]
    simp
  rw [keys, absent]
  constructor
  · intro gone
    obtain ⟨⟨⟨tracked, listed, rfl⟩, alone⟩, missing⟩ := gone
    obtain ⟨names, entry, kept, found⟩ := Walk.mem_listed_iff_kept.1 listed
    rw [Walk.relative_of_tracked? found] at alone ⊢
    refine (mem_listed_of_rules beside aside ran boundary kept found alone).resolve_left ?_
    exact fun still => missing tracked still rfl
  · intro shadowed
    obtain ⟨names, entry, tracked, kept, found, rfl, alone, pruned⟩ := shadowed
    refine ⟨⟨⟨tracked, recorded kept found, Walk.relative_of_tracked? found⟩, alone⟩, ?_⟩
    intro still listed same
    obtain ⟨others, entryToo, keptToo, foundToo⟩ := Walk.mem_listed_iff_kept.1 listed
    obtain ⟨innerToo, standsToo, _, keepsToo⟩ := Walk.mem_kept_iff.1 keptToo
    have isName := isName_of_kept beside aside ran named names entry kept
    have isNameToo : ∀ name ∈ others, IsName name := fun name inside =>
      named.of_stands standsToo name (List.mem_append_right _ inside)
    rw [Walk.relative_of_tracked? foundToo] at same
    -- A file that is listed by that path is the recorded one, as paths of names are read in one
    -- way.
    have equal := Walk.relativePath_injective isNameToo isName innerToo
      (Walk.mem_kept_iff.1 kept).1 same
    exact pruned (equal ▸ keepsToo)

/-- A recorded symbol whose name and file are gone was found in a shadowed file. -/
theorem shadowed_of_removed (named : later.disk.Named)
    (extractor : other.extractor = engine.extractor) {policy : VisibilityPolicy}
    {change : SemanticChange}
    (member : change ∈ compareSymbols
      ((engine.symbols host.disk).filter fun file _ => !other.exclude.isExcluded file)
      (other.symbols later.disk) policy) (removed : change.kind = .removed) :
    ∃ file symbols, engine.Shadowed other host.disk file ∧
      (file, symbols) ∈ (engine.symbols host.disk).entries ∧
      ∃ previous ∈ symbols, change = removalOf previous := by
  obtain ⟨previous, stood, gone, rfl⟩ := exists_of_removed member removed
  obtain ⟨_, value, inside⟩ := List.mem_flatten.1 (List.mem_of_find?_eq_some stood)
  obtain ⟨⟨file, symbols⟩, member, rfl⟩ := List.mem_map.1 value
  obtain ⟨recorded, alone⟩ := List.mem_filter.1 member
  refine ⟨file, symbols, ?_, recorded, previous, inside, rfl⟩
  obtain ⟨tracked, listed, found⟩ := List.mem_filterMap.1 (SortedMap.mem_of_mem_ofList recorded)
  obtain ⟨names, entry, kept, foundHere⟩ := Walk.mem_listed_iff_kept.1 listed
  obtain rfl : file = Walk.relativePath names :=
    (Registry.relative_of_found? found).trans (Walk.relative_of_tracked? foundHere)
  refine (mem_listed_of_rules beside aside ran boundary kept foundHere
    (by simpa using alone)).resolve_left ?_
  intro still
  -- If the file were still listed, it would still have the symbol.
  have same : other.extractor.found? later.disk tracked = some (Walk.relativePath names, symbols) := by
    rw [extractor, ← found]
    unfold Extractor.found? Registry.found?
    rw [Registry.extractFile_congr (inspect_of_kept beside aside ran kept foundHere)]
  have distinct : ((other.walk.listed later.disk).filterMap
      (other.extractor.found? later.disk)).Pairwise fun left right => left.1 ≠ right.1 := by
    rw [List.pairwise_filterMap]
    refine (Walk.pairwise_listed named).imp ?_
    intro first second before left foundLeft right foundRight equal
    rw [Registry.relative_of_found? foundLeft, Registry.relative_of_found? foundRight] at equal
    exact List.lt_irrefl _ (equal ▸ before)
  have entryNow := SortedMap.find?_eq_some_iff.1
    (SortedMap.find?_ofList_of_mem distinct (List.mem_filterMap.2 ⟨tracked, still, same⟩))
  have now : previous ∈ (other.symbols later.disk).values.flatten :=
    List.mem_flatten.2 ⟨symbols, List.mem_map.2 ⟨_, entryNow, rfl⟩, inside⟩
  exact List.find?_eq_none.1 gone previous now (by simp)

end Written

/-- After baselines are written and the tree is left as it is, an engine with more exclude rules
reports as deleted exactly the shadowed files, and as removed nothing but symbols in them. None are
shadowed unless a rule that is not for a subtree has been added. -/
theorem deleted_iff_shadowed {extractor : Extractor} {settings : Settings} {more : List String}
    {opening reopening : Disk} {root : Path}
    (opened : withSettings extractor settings opening root = .ok engine)
    (reopened : withSettings extractor { settings with exclude := settings.exclude ++ more } reopening
      root = .ok other)
    (boundary : other.boundary = engine.boundary)
    (stateDirectory : other.stateDirectory = engine.stateDirectory)
    (stands : host.disk.find? engine.boundary.root ≠ none)
    (checksums : engine.Descends host.disk checksumBaselineName)
    (symbols : engine.Descends host.disk symbolBaselineName) (aside : engine.Aside host.disk)
    (bounded : engine.settings.maxFiles < ChecksumBaseline.countBound)
    {run : Action BaselineSummary} (writes : run = engine.update ∨ ∃ reset, run = engine.create reset)
    {summary : BaselineSummary} {after : Host} (ran : run host = (.ok summary, after))
    (still : later.disk = after.disk) (named : later.disk.Named) :
    (∀ changes, other.check later = .ok changes →
        ∀ file, ⟨.deleted, file⟩ ∈ changes ↔ engine.Shadowed other host.disk file) ∧
      (∀ changes, other.semanticDiff later = .ok changes →
        ∀ change ∈ changes, change.kind = .removed →
          ∃ file symbols, engine.Shadowed other host.disk file ∧
            (file, symbols) ∈ (engine.symbols host.disk).entries ∧
            ∃ previous ∈ symbols, change = removalOf previous) ∧
      ∀ file, engine.Shadowed other host.disk file →
        ∃ rule ∈ other.exclude.rules, rule ∉ engine.exclude.rules ∧ rule.2.isSubtree = false := by
  have made := madeFrom_of_withSettings opened
  have madeToo := madeFrom_of_withSettings reopened
  obtain ⟨files, found⟩ := recorded_of_descends made.named stands checksums symbols bounded writes ran
    boundary stateDirectory
  obtain ⟨expectation, replaces⟩ := replaces_of_writes writes
  have wrote : engine.replaceBaselines expectation host = (.ok summary, after) := replaces ▸ ran
  have beside := sideBySide_of_descends made.named checksums symbols
  rw [← still] at files found
  rw [still] at named
  refine ⟨?_, ?_, ?_⟩
  · intro changes checked file
    obtain ⟨text, baseline, current, left, stored, decoded, taken, rfl⟩ := exists_of_check checked
    rw [FileChange.deleted_mem_compareChecksums_iff, ChecksumBaseline.retainTracked,
      files text baseline stored decoded, files_of_snapshot_eq taken, still]
    exact gone_iff_shadowed beside aside wrote boundary named
  · intro changes compared change member removed
    obtain ⟨text, baseline, current, stored, decoded, taken, rfl⟩ := exists_of_semanticDiff compared
    rw [found text baseline stored decoded, symbols_of_extraction_eq taken, still] at member
    exact shadowed_of_removed beside aside wrote boundary named (madeToo.languages.trans made.languages.symm) member
      removed
  · intro file shadowed
    exact exists_rule_of_shadowed (isName_of_kept beside aside wrote named) shadowed

theorem deleted_iff_shadowed_note :
    (plainEngine.create false (plainHost noteDisk)).1.toOption = some ⟨1, 0, []⟩ ∧
      ∀ changes, (excludingEngine ["note"]).check
          (plainEngine.create false (plainHost noteDisk)).2 = .ok changes →
        ∀ file, ⟨.deleted, file⟩ ∈ changes ↔
          plainEngine.Shadowed (excludingEngine ["note"]) noteDisk file := by
  refine ⟨written_note, ?_⟩
  have ran := Action.eq_of_toOption written_note
  have named : (plainEngine.create false (plainHost noteDisk)).2.disk.Named := by decide +kernel
  exact (deleted_iff_shadowed withSettings_plain (withSettings_excluding ["note"]) rfl rfl stands_note
    (descends_note (.inl rfl)) (descends_note (.inr rfl)) aside_note (by decide)
    (.inr ⟨false, rfl⟩) ran rfl named).1

/-- A project with a file in a directory. -/
def nestedDisk : Disk :=
  (Boundary.leavingDisk.put ["project"] "gen" .directory).put ["project", "gen"] "out"
    (.file .empty 0)

/-- A rule that matches the directory and not the file makes the file that is there seem deleted. -/
theorem check_reports_shadowed :
    (plainEngine.create false (plainHost nestedDisk)).1.toOption = some ⟨1, 0, []⟩ ∧
      (excludingEngine ["gen"]).check (plainEngine.create false (plainHost nestedDisk)).2 =
        .ok [⟨.deleted, "gen/out"⟩] := by
  have evaluated : (plainEngine.create false (plainHost nestedDisk)).1.toOption = some ⟨1, 0, []⟩ ∧
      (excludingEngine ["gen"]).baselinePlace (plainEngine.create false (plainHost nestedDisk)).2.disk
        checksumBaselineName = .ok (plainMemory ++ ["repo-baseline.json"]) ∧
      (Deadline.run "check" plainEngine.settings.timeout fun deadline => do
        let later := (plainEngine.create false (plainHost nestedDisk)).2
        let taken ← snapshot (excludingEngine ["gen"]).walk later.disk later.git deadline
        let old := (plainEngine.hashes nestedDisk).filter fun file _ =>
          !(excludingEngine ["gen"]).exclude.isExcluded file
        pure (compareChecksums old taken.1.files, taken.2)) = .ok [⟨.deleted, "gen/out"⟩] := by
    decide +kernel
  obtain ⟨written, placed, compared⟩ := evaluated
  have beside : plainEngine.SideBySide (plainHost nestedDisk) plainMemory :=
    sideBySide_plain (by decide) (by decide)
  refine ⟨written, (check_of_written beside.untangled (by decide) (.inr ⟨false, rfl⟩)
    (Action.eq_of_toOption written) ?_ rfl).trans compared⟩
  intro place found
  rw [beside.checksums place found]
  exact placed

end Engine

end SourceBaseline
