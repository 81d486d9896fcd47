import SourceBaseline.Proofs.Comparison
import SourceBaseline.Proofs.Comparison.Files
import SourceBaseline.Proofs.Engine.Footprint
import SourceBaseline.Proofs.Engine.Readback
import SourceBaseline.Proofs.Walk.Enumeration

/-!
# Baselines that stay out of the way

A run that writes baselines changes the tree that it has just read. What the walk keeps stands as it
did, unless an entry that is kept leads to where baselines are written. If none does, what is
compared later is what was written.
-/

set_option autoImplicit false

namespace SourceBaseline

/-- What the built-in rules exclude, no rule of the user brings back. -/
theorem Exclude.isExcluded_withUserRules {relative : String}
    (excluded : (Exclude.withUserRules []).isExcluded relative = true) (user : List String) :
    (Exclude.withUserRules user).isExcluded relative = true := by
  obtain ⟨rule, member, accepted⟩ := Exclude.isExcluded_iff.1 excluded
  refine Exclude.isExcluded_iff.2 ⟨rule, ?_, accepted⟩
  rw [Exclude.withUserRules, List.append_nil] at member
  rw [Exclude.withUserRules, List.filterMap_append]
  exact List.mem_append_left _ member

namespace Engine

variable {engine : Engine} {host later : Host} {disk : Disk} {names : List String} {entry : Entry}

/-! ## What is compared -/

/-- The hash of every file that is listed. -/
def hashes (engine : Engine) (disk : Disk) : SortedMap String String :=
  hashFiles disk (engine.walk.listed disk)

/-- The symbols that are found in the files that are listed. -/
def symbols (engine : Engine) (disk : Disk) : SymbolMap :=
  .ofList ((engine.walk.listed disk).filterMap (engine.extractor.found? disk))

theorem files_of_snapshot_eq {git : Git} {deadline left : Deadline} {baseline : ChecksumBaseline}
    (taken : snapshot engine.walk disk git deadline = .ok (baseline, left)) :
    baseline.files = engine.hashes disk := by
  obtain ⟨files, listed, taken⟩ := bind_eq_ok_iff.1 taken
  cases taken
  exact congrArg (hashFiles disk) (Walk.listed_of_enumerate listed)

theorem symbols_of_extraction_eq {deadline : Deadline} {extraction : Extraction}
    (extracted : engine.extraction disk deadline = .ok extraction) :
    extraction.symbols = engine.symbols disk := by
  obtain ⟨files, listed, extracted⟩ := bind_eq_ok_iff.1 extracted
  rw [symbols, ← Walk.listed_of_enumerate listed]
  exact Registry.symbols_of_extract extracted

theorem compared_congr {second : Disk} (listed : engine.walk.listed disk = engine.walk.listed second)
    (holds : ∀ file ∈ engine.walk.listed disk,
      disk.inspect file.absolute.route = second.inspect file.absolute.route) :
    engine.hashes disk = engine.hashes second ∧ engine.symbols disk = engine.symbols second := by
  unfold hashes symbols
  rw [← listed]
  refine ⟨hashFiles_congr holds, congrArg SortedMap.ofList (List.filterMap_congr ?_)⟩
  intro file member
  unfold Extractor.found? Registry.found?
  rw [Registry.extractFile_congr (holds file member)]

/-! ## Entries aside -/

/-- Nothing that the walk keeps lies where baselines are written or leads there. -/
def Aside (engine : Engine) (disk : Disk) : Prop :=
  ∀ names entry, (names, entry) ∈ engine.walk.kept disk →
    engine.Clear disk (engine.boundary.root ++ names) ∧
      engine.boundary.KeepsTo disk (Location.path (engine.boundary.root ++ names))
        (engine.Clear disk)

/-- Where every link that is kept leads straight out of the root, nothing leads anywhere else. -/
theorem aside_of_refuses (named : disk.Named)
    (refuses : ∀ found ∈ engine.walk.kept disk,
      engine.Clear disk (engine.boundary.root ++ found.1) ∧
        engine.boundary.RefusesLinks disk (engine.boundary.root ++ found.1)) : engine.Aside disk := by
  intro names entry kept
  obtain ⟨clear, refused⟩ := refuses _ kept
  refine ⟨clear, Boundary.keepsTo_of_descent? ?_ refused fun top within => clear.above within⟩
  apply Boundary.descent?_of_steps
  have isName : ∀ name ∈ engine.boundary.root ++ names, IsName name :=
    named.of_stands (Walk.mem_kept_iff.1 kept).2.1
  rw [Boundary.start, if_pos (Location.isAbsolute_path _), Location.components_path isName]
  have steps : ((engine.boundary.root ++ names).map Component.name).filter Component.isStep =
      (engine.boundary.root ++ names).map .name := by
    apply List.filter_eq_self.2
    intro part member
    obtain ⟨name, _, rfl⟩ := List.mem_map.1 member
    rfl
  exact steps

section Written

variable {expectation : Expectation} {outcome : Outcome BaselineSummary}
  (beside : engine.SideBySide host engine.memory) (aside : engine.Aside host.disk)
  (ran : engine.replaceBaselines expectation host = (outcome, later))
  (kept : (names, entry) ∈ engine.walk.kept host.disk)

include beside aside ran kept

theorem stands_of_kept : later.disk.find? (engine.boundary.root ++ names) = some entry := by
  rw [← agreesTo_of_clear beside ran (aside names entry kept).1 _ List.prefix_rfl]
  exact (Walk.mem_kept_iff.1 kept).2.1

theorem tracked?_of_kept : engine.walk.tracked? host.disk names entry =
    engine.walk.tracked? later.disk names entry :=
  Walk.tracked?_congr (fun _ clear => agreesTo_of_clear beside ran clear) fun _ =>
    (aside names entry kept).2

theorem inspect_of_kept {file : TrackedFile}
    (tracked : engine.walk.tracked? host.disk names entry = some file) :
    host.disk.inspect file.absolute.route = later.disk.inspect file.absolute.route :=
  (aside names entry kept).2.inspect (fun _ clear => agreesTo_of_clear beside ran clear)
    (Walk.validate_of_tracked? tracked).2

end Written

/-! ## What is recorded -/

/-- The engine is what settings make of a project. -/
structure MadeFrom (engine : Engine) (extractor : Extractor) (settings : Settings) : Prop where
  languages : engine.extractor = extractor
  rules : engine.exclude =
    .withUserRules (settings.exclude ++ stateRules engine.boundary engine.stateDirectory)
  within : engine.boundary.root <+: engine.stateDirectory
  named : ∀ name ∈ engine.stateDirectory, IsName name

theorem madeFrom_of_withSettings {extractor : Extractor} {settings : Settings} {root : Path}
    (opened : withSettings extractor settings disk root = .ok engine) :
    engine.MadeFrom extractor settings := by
  obtain ⟨boundary, _, opened⟩ := bind_eq_ok_iff.1 opened
  obtain ⟨stateDirectory, valid, same⟩ := bind_eq_ok_iff.1 opened
  cases same
  exact {
    languages := rfl
    rules := rfl
    within := List.isPrefixOf_iff_prefix.1 (Boundary.reaches_of_validate valid).1
    named := Boundary.isName_of_validate valid }

section Recorded

variable {other : Engine} {run : Action BaselineSummary} {summary : BaselineSummary} {after : Host}

/-- Where the paths of both baselines only descend, an engine with the same places reads back what
was listed when they were written. -/
theorem recorded_of_descends (named : ∀ name ∈ engine.stateDirectory, IsName name)
    (stands : host.disk.find? engine.boundary.root ≠ none)
    (checksums : engine.Descends host.disk checksumBaselineName)
    (symbols : engine.Descends host.disk symbolBaselineName)
    (bounded : engine.settings.maxFiles < ChecksumBaseline.countBound)
    (writes : run = engine.update ∨ ∃ reset, run = engine.create reset)
    (ran : run host = (.ok summary, after)) (boundary : other.boundary = engine.boundary)
    (stateDirectory : other.stateDirectory = engine.stateDirectory) :
    (∀ text baseline, other.stored after.disk checksumBaselineName = .ok (some text) →
        ChecksumBaseline.ofText? text = some baseline → baseline.files = engine.hashes host.disk) ∧
      ∀ text baseline, other.stored after.disk symbolBaselineName = .ok (some text) →
        SymbolBaseline.ofText? text = some baseline →
        baseline.symbols = engine.symbols host.disk := by
  have places : ∀ name, other.stored after.disk name = engine.stored after.disk name := by
    intro name
    unfold stored baselinePlace baselinePath
    rw [boundary, stateDirectory]
  obtain ⟨settled, settledToo⟩ := settled_of_written stands checksums symbols writes
  rw [ran] at settled settledToo
  have beside := sideBySide_of_descends named checksums symbols
  obtain ⟨baseline, extraction, taken, files, found⟩ :=
    recorded_of_written beside.untangled bounded writes ran settled settledToo fun _ _ => rfl
  obtain ⟨left, snapped, extracted⟩ := exists_of_snapshots taken
  rw [places, places, ← files_of_snapshot_eq snapped, ← symbols_of_extraction_eq extracted]
  exact ⟨files, found⟩

/-- As long as the path of the checksum baseline leads to where it was written, `check` compares the
tree with what was listed when it was written. -/
theorem check_of_written (untangled : engine.Untangled host)
    (bounded : engine.settings.maxFiles < ChecksumBaseline.countBound)
    (writes : run = engine.update ∨ ∃ reset, run = engine.create reset)
    (ran : run host = (.ok summary, after))
    (settled : ∀ place, engine.baselinePlace host.disk checksumBaselineName = .ok place →
      other.baselinePlace later.disk checksumBaselineName = .ok place)
    (still : later.disk = after.disk) :
    other.check later = Deadline.run "check" other.settings.timeout (fun deadline => do
      let taken ← snapshot other.walk later.disk later.git deadline
      let old := (engine.hashes host.disk).filter fun file _ => !other.exclude.isExcluded file
      pure (compareChecksums old taken.1.files, taken.2)) := by
  obtain ⟨expectation, rfl⟩ := replaces_of_writes writes
  obtain ⟨_, checksums, _, place, _, taken, placed, _, fits, _, ⟨between, _, stands⟩, _⟩ :=
    stampedAt_of_replaceBaselines untangled ran
  obtain ⟨left, snapped, _⟩ := exists_of_snapshots taken
  rw [← still] at stands
  have count : (Document.stamped checksums (creationOnRecord? between (Location.route place))
      host.now).fileCount < ChecksumBaseline.countBound :=
    Nat.lt_of_le_of_lt (files_of_snapshot snapped).1 bounded
  have loaded := ChecksumBaseline.load_of_stands (Boundary.isName_of_validate placed) stands fits count
  unfold check
  simp only [settled place placed, bind, Except.bind, loaded, ← files_of_snapshot_eq snapped]
  rfl

end Recorded

/-! ## The default state directory -/

section Default

variable {extractor : Extractor} {settings : Settings} {opening : Disk} {root : Path}
  (opened : withSettings extractor settings opening root = .ok engine)
  (real : engine.stateDirectory = engine.boundary.root ++ [defaultStateDirectory])

include opened real

/-- Where baselines are written in the default state directory, nothing is kept. -/
theorem not_writes_of_keeps (inner : names ≠ []) (keeps : engine.walk.Keeps names) :
    ¬ engine.Writes disk (engine.boundary.root ++ names) := by
  have hidden : engine.exclude.isExcluded (Walk.relativePath [defaultStateDirectory]) = true := by
    rw [(madeFrom_of_withSettings opened).rules]
    exact Exclude.isExcluded_withUserRules (by decide +kernel) _
  have apart : ¬ [defaultStateDirectory] <+: names :=
    fun within => Walk.not_keeps within (by simp) hidden keeps
  have place : engine.memory = engine.boundary.root ++ [defaultStateDirectory, "memory"] := by
    simp [memory, real]
  rw [Writes, place, List.prefix_append_right_inj, List.prefix_append_right_inj]
  intro either
  rcases either with within | ⟨above, _⟩
  · exact apart (List.IsPrefix.trans ⟨["memory"], rfl⟩ within)
  · obtain ⟨first, rest, rfl⟩ := List.exists_cons_of_ne_nil inner
    obtain ⟨rfl, _⟩ := List.cons_prefix_cons.1 above
    exact apart (List.prefix_append [_] rest)

theorem compared_of_written {expectation : Expectation} {outcome : Outcome BaselineSummary}
    (beside : engine.SideBySide host engine.memory) (aside : engine.Aside host.disk)
    (ran : engine.replaceBaselines expectation host = (outcome, later)) :
    engine.hashes host.disk = engine.hashes later.disk ∧
      engine.symbols host.disk = engine.symbols later.disk := by
  have same : ∀ found, found ∈ engine.walk.kept host.disk ↔ found ∈ engine.walk.kept later.disk := by
    intro found
    constructor
    · intro kept
      obtain ⟨inner, _, leaf, keeps⟩ := Walk.mem_kept_iff.1 kept
      exact Walk.mem_kept_iff.2 ⟨inner, stands_of_kept beside aside ran kept, leaf, keeps⟩
    · intro kept
      obtain ⟨inner, stands, leaf, keeps⟩ := Walk.mem_kept_iff.1 kept
      have leaves := leaves_of_not_writes beside ran (not_writes_of_keeps opened real inner keeps)
      exact Walk.mem_kept_iff.2 ⟨inner, leaves.same.symm.trans stands, leaf, keeps⟩
  apply compared_congr
  · exact Walk.listed_congr same fun _ _ kept => tracked?_of_kept beside aside ran kept
  · intro file listed
    obtain ⟨names, entry, kept, tracked⟩ := Walk.mem_listed_iff_kept.1 listed
    exact inspect_of_kept beside aside ran kept tracked

/-- What the engine itself writes in the default state directory is never seen as a change: unless
the walk keeps an entry that leads there, nothing has changed afterwards. -/
theorem unchanged_of_written (stands : host.disk.find? engine.boundary.root ≠ none)
    (checksums : engine.Descends host.disk checksumBaselineName)
    (symbols : engine.Descends host.disk symbolBaselineName) (aside : engine.Aside host.disk)
    (bounded : engine.settings.maxFiles < ChecksumBaseline.countBound)
    {run : Action BaselineSummary} (writes : run = engine.update ∨ ∃ reset, run = engine.create reset)
    {summary : BaselineSummary} {after : Host} (ran : run host = (.ok summary, after))
    (still : later.disk = after.disk) :
    (∀ changes, engine.check later = .ok changes → changes = []) ∧
      ∀ changes, engine.semanticDiff later = .ok changes → changes = [] := by
  have named := (madeFrom_of_withSettings opened).named
  obtain ⟨files, found⟩ :=
    recorded_of_descends named stands checksums symbols bounded writes ran rfl rfl
  obtain ⟨expectation, replaces⟩ := replaces_of_writes writes
  obtain ⟨hashes, extracted⟩ := compared_of_written opened real
    (sideBySide_of_descends named checksums symbols) aside (replaces ▸ ran)
  rw [← still] at files found hashes extracted
  constructor
  · intro changes checked
    obtain ⟨text, baseline, current, left, stored, decoded, taken, rfl⟩ := exists_of_check checked
    have kept := (files_of_snapshot taken).2
    rw [ChecksumBaseline.retainTracked, files text baseline stored decoded, hashes,
      ← files_of_snapshot_eq taken]
    exact (congrArg (compareChecksums · current.files) kept).trans
      (FileChange.compareChecksums_self current.files)
  · intro changes compared
    obtain ⟨text, baseline, current, stored, decoded, taken, rfl⟩ := exists_of_semanticDiff compared
    have kept := symbols_of_extraction taken
    rw [found text baseline stored decoded, extracted, ← symbols_of_extraction_eq taken, kept]
    exact compareSymbols_self current.symbols _

end Default

/-- `plainEngine` with exclude rules of the user. -/
def excludingEngine (exclude : List String) : Engine :=
  { plainEngine with
    exclude := .withUserRules exclude
    settings := { Settings.standard with exclude } }

/-- It is what the settings make of the project, if that has no language. -/
theorem withSettings_excluding (exclude : List String) :
    withSettings ⟨.empty, fun _ _ => default⟩ { Settings.standard with exclude } noteDisk
      ⟨"/project"⟩ = .ok (excludingEngine exclude) := by
  have boundary : Boundary.open? noteDisk ⟨"/project"⟩ defaultLinkBudget =
      .ok Boundary.projectBoundary := by
    decide +kernel
  have state : Boundary.projectBoundary.validate noteDisk ⟨defaultStateDirectory⟩ =
      .ok ["project", defaultStateDirectory] := by
    decide +kernel
  have rules : stateRules Boundary.projectBoundary ["project", defaultStateDirectory] = [] := by
    decide +kernel
  simp only [withSettings, Settings.standard, boundary, state, bind, Except.bind]
  rw [rules, List.append_nil]
  rfl

theorem withSettings_plain :
    withSettings ⟨.empty, fun _ _ => default⟩ .standard noteDisk ⟨"/project"⟩ = .ok plainEngine :=
  withSettings_excluding []

theorem descends_note {file : String}
    (either : file = checksumBaselineName ∨ file = symbolBaselineName) :
    plainEngine.Descends noteDisk file :=
  descends_plain (by decide) (by decide) either

theorem aside_note : plainEngine.Aside noteDisk :=
  aside_of_refuses (by decide) (by decide +kernel)

theorem written_note :
    (plainEngine.create false (plainHost noteDisk)).1.toOption = some ⟨1, 0, []⟩ := by
  decide +kernel

theorem stands_note : (plainHost noteDisk).disk.find? plainEngine.boundary.root ≠ none := by
  decide

theorem unchanged_of_written_note :
    (plainEngine.create false (plainHost noteDisk)).1.toOption = some ⟨1, 0, []⟩ ∧
      ∀ changes, plainEngine.check (plainEngine.create false (plainHost noteDisk)).2 = .ok changes →
        changes = [] := by
  refine ⟨written_note, ?_⟩
  have ran := Action.eq_of_toOption written_note
  exact (unchanged_of_written withSettings_plain rfl stands_note (descends_note (.inl rfl))
    (descends_note (.inr rfl)) aside_note (by decide) (.inr ⟨false, rfl⟩) ran rfl).1

/-- A project with a link to the checksum baseline. -/
def mirrorDisk : Disk :=
  Boundary.leavingDisk.put ["project"] "seen" (.link ⟨".driftline/memory/repo-baseline.json"⟩)

/-- The baseline that was written is seen through the link as a file that has been added. -/
theorem check_sees_baseline :
    (plainEngine.create false (plainHost mirrorDisk)).1.toOption = some ⟨0, 0, []⟩ ∧
      plainEngine.check (plainEngine.create false (plainHost mirrorDisk)).2 =
        .ok [⟨.added, "seen"⟩] := by
  have evaluated : (plainEngine.create false (plainHost mirrorDisk)).1.toOption = some ⟨0, 0, []⟩ ∧
      plainEngine.baselinePlace (plainEngine.create false (plainHost mirrorDisk)).2.disk
        checksumBaselineName = .ok (plainMemory ++ ["repo-baseline.json"]) ∧
      (Deadline.run "check" plainEngine.settings.timeout fun deadline => do
        let later := (plainEngine.create false (plainHost mirrorDisk)).2
        let taken ← snapshot plainEngine.walk later.disk later.git deadline
        let old := (plainEngine.hashes mirrorDisk).filter fun file _ =>
          !plainEngine.exclude.isExcluded file
        pure (compareChecksums old taken.1.files, taken.2)) = .ok [⟨.added, "seen"⟩] := by
    decide +kernel
  obtain ⟨written, placed, compared⟩ := evaluated
  have beside : plainEngine.SideBySide (plainHost mirrorDisk) plainMemory :=
    sideBySide_plain (by decide) (by decide)
  refine ⟨written, (check_of_written beside.untangled (by decide) (.inr ⟨false, rfl⟩)
    (Action.eq_of_toOption written) ?_ rfl).trans compared⟩
  intro place found
  rw [beside.checksums place found]
  exact placed

end Engine

end SourceBaseline
