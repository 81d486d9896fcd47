import SourceBaseline.Proofs.Cleanup
import SourceBaseline.Proofs.Engine.Preservation

/-!
# What a run leaves behind

Whether a run that writes baselines succeeds or fails, it takes its locks and temporary files with it.
Of all files and links only the two baselines can be new, and only stale locks can be gone.
-/

set_option autoImplicit false

namespace SourceBaseline

variable {host later : Host} {location : Location}

theorem Document.builds_of_stage {α : Type} [Document α] {lock : Lock} {document : α}
    {place : Location} {outcome : Outcome (α × StagedWrite)} (guards : lock.Guards place host.disk)
    (ran : stage lock document host = (outcome, later)) :
    (∃ error, outcome = .error error ∧ host.disk.Builds later.disk) ∨
      ∃ kept staged temporary content, outcome = .ok (kept, staged) ∧
        staged.Waits place temporary content later.disk ∧ host.disk.find? temporary = none ∧
        ∃ between, host.disk.Builds between ∧
          ∀ other, other ≠ temporary → later.disk.find? other = between.find? other := by
  have sheltered : lock.target.Sheltered [] host.disk := guards.target ▸ guards.sheltered
  rw [stage_apply] at ran
  rcases Action.bind_cases ran with ⟨error, rfl, failed⟩ | ⟨staged, ready, wrote, finished⟩
  · rcases StagedWrite.builds_of_stage sheltered failed with ⟨_, _, builds⟩ | ⟨_, _, _, ⟨⟩, _⟩
    exact .inl ⟨error, rfl, builds⟩
  · cases finished
    rcases StagedWrite.builds_of_stage sheltered wrote with
      ⟨_, ⟨⟩, _⟩ | ⟨_, found, temporary, ⟨⟩, located, waits, absent, builds⟩
    cases guards.target.symm.trans located
    exact .inr ⟨_, staged, temporary, _, rfl, waits, absent, builds⟩

namespace Engine

variable {engine : Engine} {first second : Location}

/-- The place of a baseline, as it is found when its lock is taken. -/
inductive BaselineAt (engine : Engine) (host : Host) : Location → Prop where
  | checksums {place : Location} :
      engine.baselinePlace host.disk checksumBaselineName = .ok place → BaselineAt engine host place
  | symbols {place : Location} :
      engine.baselinePlace (engine.lockedFor checksumBaselineName host).disk symbolBaselineName =
        .ok place → BaselineAt engine host place

/-- A lock of a baseline that is stale when it is to be taken. -/
inductive BreaksLock (engine : Engine) (host : Host) : Location → Prop where
  | checksums {place lock : Location} :
      engine.baselinePlace host.disk checksumBaselineName = .ok place →
      (Target.located place).lock = .located lock → Lock.IsStale host.disk lock →
      BreaksLock engine host lock
  | symbols {place lock : Location} :
      engine.baselinePlace (engine.lockedFor checksumBaselineName host).disk symbolBaselineName =
        .ok place →
      (Target.located place).lock = .located lock →
      Lock.IsStale (engine.lockedFor checksumBaselineName host).disk lock →
      BreaksLock engine host lock

/-- The tokens that a run would use for its locks are not used yet. -/
def TokensUnused (engine : Engine) (host : Host) : Prop :=
  (∀ place, engine.baselinePlace host.disk checksumBaselineName = .ok place →
      Lock.TokenUnused (.located place) host) ∧
    ∀ place,
      engine.baselinePlace (engine.lockedFor checksumBaselineName host).disk symbolBaselineName =
        .ok place →
      Lock.TokenUnused (.located place) (engine.lockedFor checksumBaselineName host)

/-- Two documents are staged and replaced without a trace but in their places. -/
theorem tidies_replaceBoth {lock lockToo : Lock} (checksums : ChecksumBaseline)
    (symbols : SymbolBaseline) {stale : Location → Prop} (guards : lock.Guards first host.disk)
    (guardsToo : lockToo.Guards second host.disk) :
    (replaceBoth lock lockToo checksums symbols).Relates
      (Disk.Tidies (fun place => place = first ∨ place = second) stale) host := by
  have sheltered : lock.target.Sheltered [] host.disk := guards.target ▸ guards.sheltered
  have shelteredToo : lockToo.target.Sheltered [] host.disk := guardsToo.target ▸ guardsToo.sheltered
  have keeps : host.disk.KeepsDirectories (replaceBoth lock lockToo checksums symbols host).2.disk :=
    Disk.Steps.keepsDirectories (steps_replaceBoth lock lockToo checksums symbols)
  refine ⟨fun location => ?_, stays_replaceBoth sheltered shelteredToo⟩
  cases ran : replaceBoth lock lockToo checksums symbols host with
  | mk outcome later => ?_
  rw [ran] at keeps
  dsimp only at keeps ⊢
  rcases Action.bind_cases ran with ⟨_, _, failed⟩ | ⟨⟨kept, write⟩, one, staged, ran⟩
  · rcases Document.builds_of_stage guards failed with ⟨_, _, builds⟩ | ⟨_, _, _, _, ⟨⟩, _⟩
    exact builds.remains location
  have changes := (Document.stays_stage checksums sheltered).changesBelow staged
  rcases Document.builds_of_stage guards staged with
    ⟨_, ⟨⟩, _⟩ | ⟨_, _, temporary, content, ⟨⟩, waits, absent, between, builds, elsewhere⟩
  have guardsThen := guardsToo.later changes
  have staysToo : (Document.stage lockToo symbols).StaysBelow [] one :=
    Document.stays_stage symbols (guardsThen.target ▸ guardsThen.sheltered)
  rcases Action.bind_cases ran with ⟨_, _, failed⟩ | ⟨⟨keptToo, writeToo⟩, two, stagedToo, ran⟩
  -- The second document cannot be staged: the first temporary file goes, and directories stay.
  · obtain ⟨ended, refused, rfl⟩ := Action.exists_of_onError failed
    rcases Document.builds_of_stage guardsThen refused with ⟨_, _, buildsToo⟩ | ⟨_, _, _, _, ⟨⟩, _⟩
    have waitsThen := waits.moved (staysToo.changesBelow refused) (buildsToo.file_iff.2 waits.stands)
    have gone := StagedWrite.becomes_of_discard waitsThen
    rw [gone location]
    split
    next here => exact here ▸ absent ▸ .same
    next apart =>
      refine Remains.trans (builds.remains location) ?_
      rw [← elsewhere location apart]
      exact buildsToo.remains location
  have stagedToo := Action.eq_ok_of_onError stagedToo
  rcases Document.builds_of_stage guardsThen stagedToo with
    ⟨_, ⟨⟩, _⟩ | ⟨_, _, temporaryToo, contentToo, ⟨⟩, waitsToo, absentToo, betweenToo, buildsToo,
      elsewhereToo⟩
  have distinct : temporary ≠ temporaryToo := by
    rintro rfl
    cases waits.stands.symm.trans absentToo
  have waitsThen := waits.moved (staysToo.changesBelow stagedToo)
    ((elsewhereToo temporary distinct).trans (buildsToo.file_iff.2 waits.stands))
  -- Neither temporary file was there before the documents were staged.
  have missing : ∀ place, place = temporary ∨ place = temporaryToo →
      host.disk.find? place = none := by
    rintro place (rfl | rfl)
    · exact absent
    · have none := (elsewhere _ (Ne.symm distinct)).symm.trans absentToo
      rcases builds place with same | ⟨nothing, _⟩
      · exact same.symm.trans none
      · exact nothing
  rcases StagedWrite.commits_effects waitsThen waitsToo guards.fits guardsToo.fits distinct ran with
    ⟨here, gone⟩ | ⟨here, content, stands⟩ | ⟨⟨apart, apartToo⟩, same⟩
  · rw [gone, missing location here]
    exact .same
  · rw [stands]
    refine .renewed here ?_ nofun
    intro stood
    cases stands.symm.trans (keeps location stood)
  · rw [same, elsewhereToo location apartToo]
    refine Remains.trans (builds.remains location) ?_
    rw [← elsewhere location apart]
    exact buildsToo.remains location

section Holding

variable {α : Type} {name : String} {body : Lock → Action α} {written stale : Location → Prop}

/-- What is done under the lock of a baseline leaves nothing behind with the lock around it, if it
leaves nothing behind itself. -/
theorem tidies_holding (anchored : engine.Anchored host.disk name)
    (unused : ∀ place, engine.baselinePlace host.disk name = .ok place →
      Lock.TokenUnused (.located place) host)
    (broken : ∀ place lock, engine.baselinePlace host.disk name = .ok place →
      (Target.located place).lock = .located lock → Lock.IsStale host.disk lock → stale lock)
    (works : ∀ place lock, engine.baselinePlace host.disk name = .ok place →
      lock.Guards place (engine.lockedFor name host).disk →
      (body lock).Relates (Disk.Tidies written stale) (engine.lockedFor name host)) :
    (engine.holding name body).Relates (Disk.Tidies written stale) host := by
  apply Action.relates_read_bind
  intro place placed
  have sheltered := anchored place placed
  refine Lock.tidies_holding sheltered (unused place placed) (broken place · placed) ?_
  intro lock locked acquired
  have same : engine.lockedFor name host = locked := by
    rw [lockedFor, placed]
    exact congrArg Prod.snd acquired
  exact same ▸ works place lock placed (same ▸ Lock.guards_of_acquire sheltered acquired)

end Holding

theorem tidies_replaceBaselines {expectation : Expectation}
    (checksums : engine.Anchored host.disk checksumBaselineName)
    (symbols : engine.Anchored (engine.lockedFor checksumBaselineName host).disk symbolBaselineName)
    (unused : engine.TokensUnused host) :
    (engine.replaceBaselines expectation).Relates
      (Disk.Tidies (engine.BaselineAt host) (engine.BreaksLock host)) host := by
  refine Action.relates_read_bind fun _ _ => Action.relates_read_bind fun taken _ => ?_
  refine tidies_holding checksums unused.1 (fun _ _ => .checksums) fun first lock placed guards => ?_
  refine tidies_holding symbols unused.2 (fun _ _ => .symbols) fun second lockToo placedToo guardsToo => ?_
  have written : (replaceBoth lock lockToo taken.1
      (.fresh (Location.path engine.boundary.root).text taken.2.symbols)).Relates
      (Disk.Tidies (engine.BaselineAt host) (engine.BreaksLock host))
      (engine.lockedFor symbolBaselineName (engine.lockedFor checksumBaselineName host)) := by
    refine (tidies_replaceBoth taken.1 _ (guards.later symbols.changes) guardsToo).mono ?_
      fun _ => id
    rintro location (rfl | rfl)
    · exact .checksums placed
    · exact .symbols placedToo
  exact Action.relates_read_bind fun _ _ => written.bind fun _ _ _ => Action.relates_of_same rfl

/-- Whether a run that writes baselines succeeds or fails, its locks and temporary files are gone
afterwards. Of all files and links only the baselines can be new, and only stale locks can be gone. -/
theorem run_leaves_no_trace {run : Action BaselineSummary}
    (writes : run = engine.update ∨ ∃ reset, run = engine.create reset)
    {outcome : Outcome BaselineSummary} (ran : run host = (outcome, later))
    (checksums : engine.Anchored host.disk checksumBaselineName)
    (symbols : engine.Anchored (engine.lockedFor checksumBaselineName host).disk symbolBaselineName)
    (unused : engine.TokensUnused host) :
    (∀ location entry, later.disk.find? location = some entry → entry ≠ .directory →
      host.disk.find? location = some entry ∨ engine.BaselineAt host location) ∧
    ∀ location entry, host.disk.find? location = some entry →
      later.disk.find? location = some entry ∨
      entry ≠ .directory ∧
        ((engine.BaselineAt host location ∧
            ∃ after, later.disk.find? location = some after ∧ after ≠ .directory) ∨
          (engine.BreaksLock host location ∧
            ∀ after, later.disk.find? location = some after → after = .directory)) := by
  obtain ⟨expectation, rfl⟩ := replaces_of_writes writes
  have work : (engine.replaceBaselines expectation).Relates
      (Disk.Tidies (engine.BaselineAt host) (engine.BreaksLock host)) host :=
    tidies_replaceBaselines checksums symbols unused
  have tidies := work.of_ran ran
  refine ⟨fun location entry stands leaf => ?_, fun location entry stood => ?_⟩
  · have remains := tidies.remains location
    rw [stands] at remains
    exact remains.eq_or_written leaf
  · have remains := tidies.remains location
    rw [stood] at remains
    exact remains.eq_or_gone

/-- The disk of `memoryDisk`, with a lock that a process left behind and one that somebody holds. -/
def abandonedDisk : Disk :=
  (memoryDisk "repo-baseline.json.lock" (.file "one".toUTF8 1000)).put plainMemory
    "symbol-baseline.json.lock" (.file .empty 0)

/-- The run breaks the first lock and fails at the second. -/
theorem run_leaves_no_trace_abandoned :
    let host := plainHost abandonedDisk
    (plainEngine.create true host).1 =
        .error (.locked "symbol-baseline.json.lock" defaultLockTimeout) ∧
      plainEngine.Anchored host.disk checksumBaselineName ∧
      plainEngine.Anchored (plainEngine.lockedFor checksumBaselineName host).disk symbolBaselineName ∧
      plainEngine.TokensUnused host ∧
      plainEngine.BreaksLock host (plainMemory ++ ["repo-baseline.json.lock"]) ∧
      ∀ location entry, (plainEngine.create true host).2.disk.find? location = some entry →
        entry ≠ .directory →
        host.disk.find? location = some entry ∨ plainEngine.BaselineAt host location := by
  intro host
  have refused : (plainEngine.create true host).1 =
      .error (.locked "symbol-baseline.json.lock" defaultLockTimeout) := by
    decide +kernel
  have shelters : host.disk.Shelters [] plainMemory :=
    ⟨by decide, List.nil_prefix, by decide +kernel, by decide⟩
  have placed : plainEngine.baselinePlace host.disk checksumBaselineName =
      .ok (plainMemory ++ ["repo-baseline.json"]) := by
    decide +kernel
  have placedToo : plainEngine.baselinePlace (plainEngine.lockedFor checksumBaselineName host).disk
        symbolBaselineName = .ok (plainMemory ++ ["symbol-baseline.json"]) ∧
      Lock.TokenUnused (.located (plainMemory ++ ["symbol-baseline.json"]))
        (plainEngine.lockedFor checksumBaselineName host) := by
    decide +kernel
  have checksums : plainEngine.Anchored host.disk checksumBaselineName := by
    intro place found
    cases placed.symm.trans found
    exact ⟨plainMemory, _, rfl, by decide, shelters⟩
  have symbols :
      plainEngine.Anchored (plainEngine.lockedFor checksumBaselineName host).disk
        symbolBaselineName := by
    intro place found
    cases placedToo.1.symm.trans found
    exact ⟨plainMemory, _, rfl, by decide, checksums.changes.shelters shelters⟩
  have unused : plainEngine.TokensUnused host := by
    constructor
    · rintro place found
      cases placed.symm.trans found
      decide +kernel
    · rintro place found
      cases placedToo.1.symm.trans found
      exact placedToo.2
  have stale : Lock.IsStale host.disk (plainMemory ++ ["repo-baseline.json.lock"]) := by
    decide +kernel
  exact ⟨refused, checksums, symbols, unused, .checksums placed rfl stale,
    (run_leaves_no_trace (.inr ⟨true, rfl⟩) Prod.mk.eta.symm checksums symbols unused).1⟩

/-- A project in which both baselines are links that come through a part that is missing at first, to
a link beside them. -/
def forkedDisk : Disk :=
  let state := Boundary.leavingDisk.put ["project"] ".driftline" .directory
  let memory := state.put ["project", ".driftline"] "memory" .directory
  let linked := (memory.put plainMemory "sub" .directory).put plainMemory "link" (.link ⟨"sub"⟩)
  (linked.put plainMemory "repo-baseline.json" (.link ⟨"nope/../link"⟩)).put plainMemory
    "symbol-baseline.json" (.link ⟨"nope/../link/s.json"⟩)

/-- The run fails, and the lock of the second baseline and the temporary file of the first are left where
the link leads. -/
theorem create_leaves_lock :
    let host := plainHost forkedDisk
    (plainEngine.create true host).1 = .error (.disk .notDirectory) ∧
      forkedDisk.find? (plainMemory ++ ["sub", "s.json.lock"]) = none ∧
      (plainEngine.create true host).2.disk.find? (plainMemory ++ ["sub", "s.json.lock"]) =
        some (.file "31337-1767225600000000000-1".toUTF8 0) ∧
      forkedDisk.find? (plainMemory ++ ["sub", StagedWrite.temporaryName 0]) = none ∧
      ((plainEngine.create true host).2.disk.find?
        (plainMemory ++ ["sub", StagedWrite.temporaryName 0])).isSome = true := by
  decide +kernel

end Engine

end SourceBaseline
