import SourceBaseline.Proofs.Baseline.Record
import SourceBaseline.Proofs.Engine.Stability

/-!
# The life of the baselines

A run is any number of operations, each of which may fail, with edits of everything but the state
directory in between. The times of its successful saves are all that the baselines have to tell: while
there are none, neither baseline is there, and then both are, with the first and the last of the times.
-/

set_option autoImplicit false

namespace SourceBaseline

namespace Engine

variable {engine : Engine} {host later : Host} {disk : Disk} {times : List String}

/-! ## Runs -/

inductive Operation where
  | create (reset : Bool)
  | update
  | check
  | semanticDiff
  | extractSymbols

namespace Operation

/-- Perform an operation without regard to its answer. -/
def perform (engine : Engine) : Operation → Action Unit
  | create reset => do
      let _ ← engine.create reset
      pure ()
  | update => do
      let _ ← engine.update
      pure ()
  | check => do
      let _ ← Action.read engine.check
      pure ()
  | semanticDiff => do
      let _ ← Action.read engine.semanticDiff
      pure ()
  | extractSymbols => do
      let _ ← Action.read engine.extractSymbols
      pure ()

def saves : Operation → Bool
  | create _ => true
  | update => true
  | _ => false

end Operation

/-- An edit, in which time may pass, leaves what is in the state directory as it was. -/
def Edits (engine : Engine) (before after : Disk) : Prop :=
  ∀ location, engine.stateDirectory <+: location → before.SameAt location after

/-- What a host can come to, with the times of the successful saves on the way. -/
inductive Run (engine : Engine) (start : Host) : List String → Host → Prop where
  | start : Run engine start [] start
  | succeed {times : List String} {host later : Host} {operation : Operation} :
      Run engine start times host → operation.perform engine host = (.ok (), later) →
      Run engine start (if operation.saves then times ++ [host.now] else times) later
  | fail {times : List String} {host later : Host} {operation : Operation} {error : Error} :
      Run engine start times host → operation.perform engine host = (.error error, later) →
      Run engine start times later
  | edit {times : List String} {host later : Host} :
      Run engine start times host → engine.Edits host.disk later.disk → Run engine start times later

theorem Run.wait {start : Host} (run : engine.Run start times host) (now : String) :
    engine.Run start times { host with now } :=
  .edit run fun _ _ => rfl

/-! ## The invariant -/

def checksumPlace (engine : Engine) : Location :=
  engine.memory ++ ["repo-baseline.json"]

def symbolPlace (engine : Engine) : Location :=
  engine.memory ++ ["symbol-baseline.json"]

/-- The files that are looked up when baselines are written. -/
def baselineFiles : List String :=
  ["repo-baseline.json", "repo-baseline.json.lock", "symbol-baseline.json",
    "symbol-baseline.json.lock"]

/-- The state directory is real, no link stands in the way of a baseline, and what stands in their
places tells of the saves at those times. -/
structure Sound (engine : Engine) (disk : Disk) (times : List String) : Prop where
  stands : disk.find? engine.stateDirectory = some .directory
  straight : ∀ file ∈ baselineFiles, disk.LinkFree (engine.memory ++ [file])
  checksums : Document.Tells ChecksumBaseline.Stamps engine.checksumPlace disk times
  symbols : Document.Tells SymbolBaseline.Stamps engine.symbolPlace disk times

theorem within_memory (file : String) : engine.stateDirectory <+: engine.memory ++ [file] :=
  (List.prefix_append _ _).trans (List.prefix_append _ _)

/-- Where the state directory is real, only links in it can be in the way. -/
theorem linkFree_of_state {location : Location}
    (stands : disk.find? engine.stateDirectory = some .directory)
    (plain : ∀ top target, engine.stateDirectory <+: top → top <+: location →
      disk.find? top ≠ some (.link target))
    (within : engine.stateDirectory <+: location) : disk.LinkFree location := by
  intro top target above link
  rcases List.prefix_or_prefix_of_prefix above within with higher | inner
  · by_cases same : top = engine.stateDirectory
    · cases stands.symm.trans (same ▸ link)
    · cases (Disk.directory_of_above stands higher same).symm.trans link
  · exact plain top target inner above link

theorem sound_of_empty (stands : disk.find? engine.stateDirectory = some .directory)
    (empty : disk.below engine.stateDirectory = []) : engine.Sound disk [] := by
  have missing : ∀ location, engine.stateDirectory <+: location →
      location ≠ engine.stateDirectory → disk.find? location = none := by
    intro location within proper
    obtain ⟨names, rfl⟩ := within
    apply Classical.byContradiction
    intro some
    obtain ⟨entry, found⟩ := Option.ne_none_iff_exists'.1 some
    have member := Disk.mem_below_iff.2 ⟨by simpa using proper, found⟩
    rw [empty] at member
    cases member
  have proper : ∀ file, engine.memory ++ [file] ≠ engine.stateDirectory := by
    intro file
    simp [memory]
  refine ⟨stands, ?_, .nothing (missing _ (within_memory _) (proper _)),
    .nothing (missing _ (within_memory _) (proper _))⟩
  intro file _
  refine linkFree_of_state stands ?_ (within_memory file)
  intro top target within _ link
  by_cases same : top = engine.stateDirectory
  · cases stands.symm.trans (same ▸ link)
  · cases (missing top within same).symm.trans link

theorem Sound.edit {after : Disk} (sound : engine.Sound disk times)
    (edits : engine.Edits disk after) : engine.Sound after times := by
  have stands := (edits _ List.prefix_rfl).directory sound.stands
  refine ⟨stands, ?_, sound.checksums.later (edits _ (within_memory _)),
    sound.symbols.later (edits _ (within_memory _))⟩
  intro file member
  refine linkFree_of_state stands ?_ (within_memory file)
  intro top target within above link
  exact sound.straight file member top target above ((edits top within).link link)

/-! ## Saves -/

section Writing

variable {extractor : Extractor} {settings : Settings} (made : engine.MadeFrom extractor settings)
  (sound : engine.Sound host.disk times)

include made sound

theorem Sound.descends {name file : String} (member : file ∈ baselineFiles)
    (memberToo : file ++ ".lock" ∈ baselineFiles)
    (steps : engine.boundary.descent? (engine.baselinePath name) = some (engine.memory ++ [file])) :
    engine.Descends host.disk name := by
  have within := made.within.trans (within_memory file)
  refine ⟨_, steps, within, ?_, sound.straight file member, ?_⟩
  · intro same
    have shorter := made.within.length_le
    have size := congrArg List.length same
    simp only [memory, List.length_append, List.length_singleton] at size
    omega
  · rw [Target.lock_located]
    exact sound.straight _ memberToo

theorem Sound.sideBySide : engine.SideBySide host engine.memory :=
  sideBySide_of_descends made.named
    (sound.descends made (.head _) (by decide) (descent?_checksums made.named))
    (sound.descends made (by decide) (by decide) (descent?_symbols made.named))

variable {expectation : Expectation}

/-- Whatever a run that writes baselines comes to, the state directory stays real and no link comes in
the way. -/
theorem Sound.state {outcome : Outcome BaselineSummary}
    (ran : engine.replaceBaselines expectation host = (outcome, later)) :
    later.disk.find? engine.stateDirectory = some .directory ∧
      ∀ file ∈ baselineFiles, later.disk.LinkFree (engine.memory ++ [file]) := by
  have outside : ¬ engine.Writes host.disk engine.stateDirectory := by
    intro writes
    rcases writes with within | ⟨_, missing⟩
    · have shorter := within.length_le
      simp [memory] at shorter
    · cases sound.stands.symm.trans missing
  have leaves := leaves_of_not_writes (sound.sideBySide made) ran outside
  exact ⟨leaves.same.trans sound.stands,
    fun file member => leaves.changes.linkFree (sound.straight file member)⟩

theorem Sound.failed {error : Error}
    (ran : engine.replaceBaselines expectation host = (.error error, later)) :
    engine.Sound later.disk times := by
  have beside := sound.sideBySide made
  obtain ⟨stands, straight⟩ := sound.state made ran
  have kept : (∀ location, engine.Spares host location →
      later.disk.find? location = host.disk.find? location) → engine.Sound later.disk times := by
    intro same
    exact ⟨stands, straight,
      sound.checksums.later (.of_eq (same _ (beside.spares_baseline (.inl rfl)))),
      sound.symbols.later (.of_eq (same _ (beside.spares_baseline (.inr rfl))))⟩
  rcases replaceBaselines_cases beside.untangled ran with ⟨_, _, same⟩ |
    ⟨_, _, first, second, _, _, placedToo, _, _, ends⟩
  · exact kept same
  cases ends with
  | neither same => exact kept same
  | firstAlone blocked _ _ =>
      obtain rfl := beside.symbolsLocked second placedToo
      exact absurd blocked sound.symbols.not_directory

theorem Sound.written (bounded : engine.settings.maxFiles < ChecksumBaseline.countBound)
    {summary : BaselineSummary}
    (ran : engine.replaceBaselines expectation host = (.ok summary, later)) :
    engine.Sound later.disk (times ++ [host.now]) := by
  have beside := sound.sideBySide made
  obtain ⟨stands, straight⟩ := sound.state made ran
  obtain ⟨_, checksums, extraction, first, second, taken, placed, placedToo, fits, fitsToo, stamps,
    stampsToo⟩ := stampedAt_of_replaceBaselines beside.untangled ran
  obtain rfl := beside.checksums first placed
  obtain rfl := beside.symbolsLocked second placedToo
  obtain ⟨left, snapped, _⟩ := exists_of_snapshots taken
  refine ⟨stands, straight, ?_, ?_⟩
  · refine sound.checksums.stamped (beside.shelters.named_concat (by decide))
      (sound.straight _ (by decide)) fits ?_ ?_ stamps
    · intro first last baseline stamped
      exact stamped.1 ▸ ChecksumBaseline.recordedCreation?_documentText stamped.2.2
    · intro prior
      apply ChecksumBaseline.stamps_fresh (createdAt_of_snapshot snapped)
      exact Nat.lt_of_le_of_lt (files_of_snapshot snapped).1 bounded
  · refine sound.symbols.stamped (beside.shelters.named_concat (by decide))
      (sound.straight _ (by decide)) fitsToo ?_ ?_ stampsToo
    · intro first last baseline stamped
      exact stamped.1 ▸ baseline.recordedCreation?_documentText
    · intro prior
      exact SymbolBaseline.stamps_fresh _ _ prior _

theorem Sound.expects (expected : engine.expectBaselines expectation host.disk = .ok ()) :
    (expectation = .absent → times = []) ∧ (expectation = .present → times ≠ []) := by
  have beside := sound.sideBySide made
  obtain ⟨first, firstStored, expected⟩ := bind_eq_ok_iff.1 expected
  obtain ⟨second, secondStored, expected⟩ := bind_eq_ok_iff.1 expected
  have firstEver : first = true ↔ times ≠ [] := by
    obtain ⟨place, placed, same⟩ := bind_eq_ok_iff.1 firstStored
    obtain rfl := beside.checksums place placed
    cases same
    exact sound.checksums.isPresent_iff (beside.shelters.named_concat (by decide))
      (sound.straight _ (by decide))
  have secondEver : second = true ↔ times ≠ [] := by
    obtain ⟨place, placed, same⟩ := bind_eq_ok_iff.1 secondStored
    obtain rfl := beside.symbols place placed
    cases same
    exact sound.symbols.isPresent_iff (beside.shelters.named_concat (by decide))
      (sound.straight _ (by decide))
  constructor
  · rintro rfl
    apply Classical.byContradiction
    intro ever
    rw [firstEver.2 ever] at expected
    cases expected
  · rintro rfl
    intro never
    rw [Bool.eq_false_iff.2 (mt firstEver.1 (not_not_intro never)),
      Bool.eq_false_iff.2 (mt secondEver.1 (not_not_intro never))] at expected
    cases expected

end Writing

/-! ## Whole runs -/

section Whole

variable {extractor : Extractor} {settings : Settings} (made : engine.MadeFrom extractor settings)
  (bounded : engine.settings.maxFiles < ChecksumBaseline.countBound)

include made bounded

/-- An operation keeps everything sound, and a save that succeeds adds its time. -/
theorem Sound.performed {operation : Operation} {outcome : Outcome Unit}
    (sound : engine.Sound host.disk times)
    (ran : operation.perform engine host = (outcome, later)) :
    engine.Sound later.disk
      (if outcome.isOk ∧ operation.saves then times ++ [host.now] else times) := by
  have writing : ∀ {expectation : Expectation}, (do
        let _ ← engine.replaceBaselines expectation
        pure () : Action Unit) host = (outcome, later) →
      engine.Sound later.disk (if outcome.isOk then times ++ [host.now] else times) := by
    intro expectation ran
    rcases Action.bind_cases ran with ⟨error, rfl, failed⟩ | ⟨summary, ended, written, finished⟩
    · exact sound.failed made failed
    · cases finished
      exact sound.written made bounded written
  have reading : ∀ {α : Type} {question : Host → Outcome α}, (do
        let _ ← Action.read question
        pure () : Action Unit) host = (outcome, later) → later = host := by
    intro α question ran
    rcases Action.read_bind_cases ran with ⟨_, _, same⟩ | ⟨_, _, finished⟩
    · exact same
    · cases finished
      rfl
  cases operation with
  | create reset => simpa [Operation.saves] using writing ran
  | update => simpa [Operation.saves] using writing ran
  | check => simpa [Operation.saves, reading ran] using sound
  | semanticDiff => simpa [Operation.saves, reading ran] using sound
  | extractSymbols => simpa [Operation.saves, reading ran] using sound

theorem sound_of_run {start : Host} (sound : engine.Sound start.disk [])
    (run : engine.Run start times host) : engine.Sound host.disk times := by
  induction run with
  | start => exact sound
  | @succeed _ _ _ operation _ performed ih =>
      have later := ih.performed made bounded performed
      simpa [Except.isOk, Except.toBool] using later
  | fail _ performed ih =>
      have later := ih.performed made bounded performed
      simpa [Except.isOk, Except.toBool] using later
  | edit _ edits ih => exact ih.edit edits

end Whole

/-- Started with an empty state directory, a run keeps both baselines absent until the first save
succeeds, and present from then on. Both tell of the first and the last save. `create` without `reset`
succeeds only while they are absent, `update` only while they are present. -/
theorem baselines_of_run {extractor : Extractor} {settings : Settings} {opening : Disk} {root : Path}
    (opened : withSettings extractor settings opening root = .ok engine)
    (bounded : engine.settings.maxFiles < ChecksumBaseline.countBound) {start : Host}
    (stands : start.disk.find? engine.stateDirectory = some .directory)
    (empty : start.disk.below engine.stateDirectory = []) (run : engine.Run start times host) :
    (times = [] ∧ host.disk.find? engine.checksumPlace = none ∧
        host.disk.find? engine.symbolPlace = none ∨
      ∃ checksums symbols,
        ChecksumBaseline.load host.disk (Location.route engine.checksumPlace) = .ok (some checksums) ∧
        SymbolBaseline.load host.disk (Location.route engine.symbolPlace) = .ok (some symbols) ∧
        times.head? = some checksums.createdAt ∧ times.getLast? = some checksums.timestamp ∧
        times.head? = some symbols.createdAt ∧ times.getLast? = some symbols.updatedAt) ∧
    (∀ summary after, engine.create false host = (.ok summary, after) → times = []) ∧
    ∀ summary after, engine.update host = (.ok summary, after) → times ≠ [] := by
  have made := madeFrom_of_withSettings opened
  have sound := sound_of_run made bounded (sound_of_empty stands empty) run
  have beside := sound.sideBySide made
  refine ⟨?_, ?_, ?_⟩
  · by_cases never : times = []
    · subst never
      exact .inl ⟨rfl, sound.checksums.absent, sound.symbols.absent⟩
    · obtain ⟨checksums, loaded, created, stamped⟩ := ChecksumBaseline.load_of_tells sound.checksums
        (beside.shelters.named_concat (by decide)) never
      obtain ⟨symbols, loadedToo, createdToo, stampedToo⟩ := SymbolBaseline.load_of_tells sound.symbols
        (beside.shelters.named_concat (by decide)) never
      exact .inr ⟨checksums, symbols, loaded, loadedToo, created, stamped, createdToo, stampedToo⟩
  · intro summary after created
    obtain ⟨expected, _⟩ := stampedAt_of_replaceBaselines beside.untangled created
    exact (sound.expects made expected).1 rfl
  · intro summary after updated
    obtain ⟨expected, _⟩ := stampedAt_of_replaceBaselines beside.untangled updated
    exact (sound.expects made expected).2 rfl

/-- A host whose state directory is empty. -/
def emptyStateHost : Host :=
  plainHost (Boundary.leavingDisk.put ["project"] ".driftline" .directory)

theorem baselines_of_run_saved :
    ∃ saved : Host, plainEngine.Run emptyStateHost ["now"] { saved with now := "later" } ∧
      ∃ checksums,
        ChecksumBaseline.load saved.disk (Location.route plainEngine.checksumPlace) =
          .ok (some checksums) ∧
        checksums.createdAt = "now" ∧ checksums.timestamp = "now" := by
  obtain ⟨saved, created⟩ : ∃ saved,
      Operation.perform plainEngine (.create false) emptyStateHost = (.ok (), saved) :=
    ⟨_, Action.eq_of_toOption (by decide +kernel)⟩
  have first : plainEngine.Run emptyStateHost ["now"] saved := .succeed .start created
  have run := first.wait "later"
  obtain ⟨⟨never, _⟩ | ⟨checksums, _, loaded, _, created, stamped, _⟩, _⟩ :=
    baselines_of_run withSettings_plain (by decide) (by decide +kernel) (by decide +kernel) run
  · cases never
  · exact ⟨saved, run, checksums, loaded, (Option.some.inj created).symm,
      (Option.some.inj stamped).symm⟩

end Engine

end SourceBaseline
