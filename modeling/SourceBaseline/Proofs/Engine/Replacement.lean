import SourceBaseline.Proofs.Engine.Confinement
import SourceBaseline.Proofs.Spared

/-!
# Replacing both baselines

Whatever fails before the first staged write takes its place leaves both baselines as they were. The
second write then takes its place too, unless a directory stands there.
-/

set_option autoImplicit false

namespace SourceBaseline

/-- The lock is held for a place that fits, in a directory behind no link. -/
structure Lock.Guards (lock : Lock) (place : Location) (disk : Disk) : Prop where
  target : lock.target = .located place
  sheltered : (Target.located place).Sheltered [] disk
  fits : place.Fits

theorem Lock.Guards.leaves_drop {lock : Lock} {place location : Location} {disk : Disk}
    (guards : lock.Guards place disk) (apart : ¬ Attends location place) :
    disk.Leaves location (lock.drop disk) := by
  obtain ⟨directory, name, located, _⟩ := guards.sheltered
  cases located
  apply Lock.leaves_drop
  · rw [guards.target]
    exact guards.sheltered
  · rw [guards.target, Target.lock_located]
    rintro ⟨⟩
    exact ne_lock apart rfl

theorem Lock.Guards.later {lock : Lock} {place : Location} {disk after : Disk}
    (guards : lock.Guards place disk) (changes : Disk.ChangesBelow [] disk after) :
    lock.Guards place after :=
  ⟨guards.target, guards.sheltered.later changes, guards.fits⟩

theorem Lock.guards_of_acquire {lock : Lock} {place : Location} {timeout : Nat} {host later : Host}
    (sheltered : (Target.located place).Sheltered [] host.disk)
    (acquired : acquire (.located place) timeout host = (.ok lock, later)) :
    lock.Guards place later.disk := by
  refine ⟨target_of_acquire acquired,
    sheltered.later ((stays_acquire sheltered).changesBelow acquired), ?_⟩
  obtain ⟨directory, name, located, isName, shelters⟩ := sheltered
  cases located
  exact (stands_of_acquire isName shelters acquired).1

theorem Lock.ne_of_acquire {lock lockToo : Lock} {first second : Location} {timeout : Nat}
    {host between later : Host} (sheltered : (Target.located first).Sheltered [] host.disk)
    (acquired : acquire (.located first) timeout host = (.ok lock, between))
    (acquiredToo : acquire (.located second) timeout between = (.ok lockToo, later)) :
    first ≠ second := by
  rintro rfl
  have changes := (stays_acquire sheltered).changesBelow acquired
  obtain ⟨directory, name, located, isName, shelters⟩ := sheltered
  cases located
  obtain ⟨_, content, held⟩ := stands_of_acquire isName shelters acquired
  exact find?_lock_of_acquire isName (changes.shelters shelters) acquiredToo content held

namespace Document

variable {α : Type} [Document α] {lock : Lock} {place : Location} {document : α} {disk : Disk}
  {host later : Host}

/-- The document stands at the place with the stamps of some save. -/
def StandsAt (document : α) (place : Location) (disk : Disk) : Prop :=
  ∃ prior now, disk.find? place = some (.file (bytes (stamped document prior now)) 0)

/-- The document stands at the place with the stamps of a save at that time: the one of the first
save is what was on record while the place was as before. -/
def StampedAt (document : α) (place : Location) (before : Disk) (now : String) (after : Disk) : Prop :=
  ∃ between, before.Leaves place between ∧ after.find? place =
    some (.file (bytes (stamped document (creationOnRecord? between (Location.route place)) now)) 0)

theorem StampedAt.transfer {before start ended after : Disk} {now : String}
    (stamps : StampedAt document place start now ended) (begins : before.Leaves place start)
    (finishes : ended.Leaves place after) : StampedAt document place before now after := by
  obtain ⟨between, leaves, stands⟩ := stamps
  exact ⟨between, trans_of (Disk.Leaves place) begins leaves, finishes.same.trans stands⟩

theorem waits_of_stage {kept : α} {staged : StagedWrite} (guards : lock.Guards place host.disk)
    (ran : stage lock document host = (.ok (kept, staged), later)) :
    kept = stamped document (creationOnRecord? host.disk (Location.route place)) host.now ∧
      later.now = host.now ∧
      ∃ temporary, staged.Waits place temporary (bytes kept) later.disk ∧
        host.disk.find? temporary = none ∧
        ∀ location entry, host.disk.find? location = some entry →
          later.disk.find? location = some entry := by
  obtain ⟨stamps, wrote⟩ := exists_of_stage ran
  obtain ⟨_, _, _, _, sameHost⟩ := StagedWrite.exists_of_stage wrote
  obtain ⟨directory, name, located, isName, shelters⟩ := guards.sheltered
  cases located
  rw [guards.target] at stamps wrote
  exact ⟨stamps, by rw [sameHost], StagedWrite.waits_of_stage isName shelters wrote⟩

theorem leaves_stage {location : Location} (document : α)
    (spares : lock.target.Spares location host.disk) :
    (stage lock document).Relates (Disk.Leaves location) host := by
  unfold Action.Relates
  rw [stage_apply]
  exact (StagedWrite.leaves_stage spares).bind fun _ _ _ => Action.relates_of_same rfl

end Document

namespace Engine

variable {engine : Engine} {host : Host} {first second : Location}

/-! ## Two staged writes -/

/-- Of two writes that wait, the second takes its place with the first unless a directory stands
there. -/
theorem commits_cases {α : Type} {value : α} {firstWrite secondWrite : StagedWrite}
    {firstTemporary secondTemporary : Location} {firstContent secondContent : ByteArray}
    {outcome : Outcome α} {later : Host}
    (waits : firstWrite.Waits first firstTemporary firstContent host.disk)
    (waitsToo : secondWrite.Waits second secondTemporary secondContent host.disk)
    (fits : first.Fits) (fitsToo : second.Fits) (distinct : first ≠ second)
    (apart : ¬ Attends first second) (apartToo : ¬ Attends second first)
    (temporaries : firstTemporary ≠ secondTemporary)
    (ran : (do
      Action.onError firstWrite.commit secondWrite.discard
      secondWrite.commit
      pure value : Action α) host = (outcome, later)) :
    (outcome = .ok value ∧ later.disk.find? first = some (.file firstContent 0) ∧
        later.disk.find? second = some (.file secondContent 0)) ∨
      outcome = .error (.disk .isDirectory) ∧
        ((∀ location, location ≠ firstTemporary → location ≠ secondTemporary →
            later.disk.find? location = host.disk.find? location) ∨
          host.disk.find? second = some .directory ∧
            later.disk.find? first = some (.file firstContent 0) ∧
            ∀ location, location ≠ firstTemporary → location ≠ secondTemporary → location ≠ first →
              later.disk.find? location = host.disk.find? location) := by
  have firstOwn : first ≠ secondTemporary := fun same => apart (same ▸ waitsToo.attends)
  have secondOwn : second ≠ firstTemporary := fun same => apartToo (same ▸ waits.attends)
  have stays := StagedWrite.stays_commit_onError waits.pending waitsToo.pending
  rcases Action.bind_cases ran with ⟨error, rfl, failed⟩ | ⟨⟨⟩, between, committed, ran⟩
  -- The first commit fails, and the second write is discarded with it.
  · obtain ⟨ended, refused, rfl⟩ := Action.exists_of_onError failed
    rcases StagedWrite.commit_cases waits fits refused with ⟨⟨⟩, _⟩ | ⟨⟨⟩, _, kept⟩
    refine .inr ⟨rfl, .inl ?_⟩
    intro location notFirst notSecond
    have changes := (StagedWrite.stays_commit waits.pending).changesBelow refused
    rw [StagedWrite.find?_of_discard (waitsToo.pending.later changes) ?_, kept location notFirst]
    rw [waitsToo.holds]
    rintro ⟨⟩
    exact notSecond rfl
  rcases StagedWrite.commit_cases waits fits (Action.eq_ok_of_onError committed) with
    ⟨_, moved⟩ | ⟨⟨⟩, _⟩
  -- The first write has taken its place, which is not that of the second temporary file.
  have still : between.disk.find? secondTemporary = host.disk.find? secondTemporary := by
    rw [moved, if_neg (Ne.symm firstOwn), if_neg (Ne.symm temporaries)]
  have waitsStill := waitsToo.later (stays.changesBelow committed) still
  rcases Action.bind_cases ran with ⟨error, rfl, failed⟩ | ⟨⟨⟩, ended, committedToo, finished⟩
  -- A directory stands in the second place, and the first document stays in its own.
  · rcases StagedWrite.commit_cases waitsStill fitsToo failed with ⟨⟨⟩, _⟩ | ⟨⟨⟩, blocked, kept⟩
    rw [moved, if_neg (Ne.symm distinct), if_neg secondOwn] at blocked
    refine .inr ⟨rfl, .inr ⟨blocked, ?_, ?_⟩⟩
    · rw [kept first firstOwn, moved, if_pos rfl]
    · intro location notFirst notSecond elsewhere
      rw [kept location notSecond, moved, if_neg elsewhere, if_neg notFirst]
  · cases finished
    rcases StagedWrite.commit_cases waitsStill fitsToo committedToo with ⟨_, movedToo⟩ | ⟨⟨⟩, _⟩
    refine .inl ⟨rfl, ?_, by rw [movedToo, if_pos rfl]⟩
    rw [movedToo, if_neg distinct, if_neg firstOwn, moved, if_pos rfl]

/-! ## Staging and replacing -/

/-- Locking and replacing both places leaves the location alone. -/
def BothSpare (first second : Location) (disk : Disk) (location : Location) : Prop :=
  (Target.located first).Spares location disk ∧ (Target.located second).Spares location disk

theorem BothSpare.later {location : Location} {disk after : Disk}
    (spared : BothSpare first second disk location) (leaves : disk.Leaves location after) :
    BothSpare first second after location :=
  ⟨spared.1.later leaves, spared.2.later leaves⟩

/-- Neither place is in the way of what is done for the other or for itself. -/
structure Apart (first second : Location) (disk : Disk) : Prop where
  distinct : first ≠ second
  firstSpared : BothSpare first second disk first
  secondSpared : BothSpare first second disk second

/-- How the replacement of two documents ends: with both in their places, with all that is spared as
before, or with the first alone in its place because a directory stands in that of the second. -/
inductive Ends {α : Type} (checksums : ChecksumBaseline) (symbols : SymbolBaseline)
    (first second : Location) (spared : Location → Prop) (before after : Disk) : Outcome α → Prop where
  | both {value : α} :
      Document.StandsAt checksums first after → Document.StandsAt symbols second after →
      Ends checksums symbols first second spared before after (.ok value)
  | neither {error : Error} :
      (∀ location, spared location → after.find? location = before.find? location) →
      Ends checksums symbols first second spared before after (.error error)
  | firstAlone :
      before.find? second = some .directory → Document.StandsAt checksums first after →
      (∀ location, spared location → location ≠ first →
        after.find? location = before.find? location) →
      Ends checksums symbols first second spared before after (.error (.disk .isDirectory))

section Replacing

variable {checksumLock symbolLock : Lock} {checksums : ChecksumBaseline} {symbols : SymbolBaseline}
  {outcome : Outcome (ChecksumBaseline × SymbolBaseline)} {later : Host}

/-- Either a document cannot be staged, and whatever is spared is as before, or both writes wait. -/
theorem stages_cases (guards : checksumLock.Guards first host.disk)
    (guardsToo : symbolLock.Guards second host.disk) (apart : Apart first second host.disk)
    (ran : replaceBoth checksumLock symbolLock checksums symbols host = (outcome, later)) :
    (∃ error, outcome = .error error ∧
        ∀ location, BothSpare first second host.disk location →
          host.disk.Leaves location later.disk) ∨
      ∃ (kept : ChecksumBaseline) (keptToo : SymbolBaseline) (write writeToo : StagedWrite)
        (temporary temporaryToo : Location) (ready : Host),
        (∃ between, host.disk.Leaves first between ∧ kept = Document.stamped checksums
          (creationOnRecord? between (Location.route first)) host.now) ∧
        (∃ between, host.disk.Leaves second between ∧ keptToo = Document.stamped symbols
          (creationOnRecord? between (Location.route second)) host.now) ∧
        write.Waits first temporary (Document.bytes kept) ready.disk ∧
        writeToo.Waits second temporaryToo (Document.bytes keptToo) ready.disk ∧
        temporary ≠ temporaryToo ∧
        (∀ location, BothSpare first second host.disk location →
          host.disk.Leaves location ready.disk) ∧
        (do
          Action.onError write.commit writeToo.discard
          writeToo.commit
          pure (kept, keptToo) : Action (ChecksumBaseline × SymbolBaseline)) ready =
          (outcome, later) := by
  have stages : ∀ location, BothSpare first second host.disk location →
      (Document.stage checksumLock checksums).Relates (Disk.Leaves location) host := by
    intro location spared
    apply Document.leaves_stage
    rw [guards.target]
    exact spared.1
  rcases Action.bind_cases ran with ⟨error, rfl, failed⟩ | ⟨⟨kept, write⟩, one, staged, ran⟩
  · exact .inl ⟨error, rfl, fun location spared => (stages location spared).of_ran failed⟩
  have leaves := fun location spared => (stages location spared).of_ran staged
  obtain ⟨stamps, sameTime, temporary, waits, _, _⟩ := Document.waits_of_stage guards staged
  have guardsThen := guardsToo.later (leaves first apart.firstSpared).changes
  have stagesToo : ∀ location, BothSpare first second host.disk location →
      (Document.stage symbolLock symbols).Relates (Disk.Leaves location) one := by
    intro location spared
    apply Document.leaves_stage
    rw [guardsThen.target]
    exact spared.2.later (leaves location spared)
  rcases Action.bind_cases ran with ⟨error, rfl, failed⟩ | ⟨⟨keptToo, writeToo⟩, two, stagedToo, ran⟩
  -- The second document cannot be staged, and the write that waits is discarded.
  · refine .inl ⟨error, rfl, fun location spared => ?_⟩
    have discards : (Action.onError (Document.stage symbolLock symbols) write.discard).Relates
        (Disk.Leaves location) one := by
      refine (stagesToo location spared).onError fun _ ended refused => ?_
      have leavesToo := (stagesToo location spared).of_ran refused
      apply StagedWrite.leaves_discard (waits.pending.later leavesToo.changes)
      exact waits.pending.elsewhere (waits.target ▸ spared.1)
    exact trans_of (Disk.Leaves location) (leaves location spared) (discards.of_ran failed)
  have stagedToo := Action.eq_ok_of_onError stagedToo
  obtain ⟨stampsToo, _, temporaryToo, waitsToo, free, standing⟩ :=
    Document.waits_of_stage guardsThen stagedToo
  -- The second document was staged under a free name, so the first temporary file still stands.
  have waitsThen : write.Waits first temporary (Document.bytes kept) two.disk := by
    refine waits.later ((stagesToo first apart.firstSpared).of_ran stagedToo).changes ?_
    rw [waits.stands]
    exact standing _ _ waits.stands
  refine .inr ⟨kept, keptToo, write, writeToo, temporary, temporaryToo, two,
    ⟨host.disk, refl_of (Disk.Leaves first) host.disk, stamps⟩,
    ⟨one.disk, leaves second apart.secondSpared, sameTime ▸ stampsToo⟩,
    waitsThen, waitsToo, ?_, ?_, ?_⟩
  · rintro rfl
    exact nomatch waits.stands.symm.trans free
  · intro location spared
    exact trans_of (Disk.Leaves location) (leaves location spared)
      ((stagesToo location spared).of_ran stagedToo)
  · exact ran

theorem replaceBoth_ends (guards : checksumLock.Guards first host.disk)
    (guardsToo : symbolLock.Guards second host.disk) (apart : Apart first second host.disk)
    (ran : replaceBoth checksumLock symbolLock checksums symbols host = (outcome, later)) :
    Ends checksums symbols first second (BothSpare first second host.disk) host.disk later.disk
      outcome := by
  rcases stages_cases guards guardsToo apart ran with ⟨error, failed, leaves⟩ |
    ⟨kept, keptToo, write, writeToo, temporary, temporaryToo, ready, ⟨_, _, rfl⟩, ⟨_, _, rfl⟩, waits,
      waitsToo, temporaries, leaves, ran⟩
  · exact failed ▸ .neither fun location spared => (leaves location spared).same
  have beside : ∀ {location}, BothSpare first second host.disk location →
      location ≠ temporary ∧ location ≠ temporaryToo := by
    rintro location ⟨spared, sparedToo⟩
    constructor
    · rintro rfl
      exact spared.apart waits.attends
    · rintro rfl
      exact sparedToo.apart waitsToo.attends
  rcases commits_cases waits waitsToo guards.fits guardsToo.fits apart.distinct
      apart.firstSpared.2.apart apart.secondSpared.1.apart temporaries ran with
    ⟨rfl, replaced, replacedToo⟩ | ⟨rfl, kept | ⟨blocked, replaced, kept⟩⟩
  · exact .both ⟨_, _, replaced⟩ ⟨_, _, replacedToo⟩
  · refine .neither fun location spared => ?_
    rw [kept location (beside spared).1 (beside spared).2, (leaves location spared).same]
  · rw [(leaves second apart.secondSpared).same] at blocked
    refine .firstAlone blocked ⟨_, _, replaced⟩ fun location spared elsewhere => ?_
    rw [kept location (beside spared).1 (beside spared).2 elsewhere, (leaves location spared).same]

theorem stands_of_replaceBoth {kept : ChecksumBaseline} {keptToo : SymbolBaseline}
    (guards : checksumLock.Guards first host.disk) (guardsToo : symbolLock.Guards second host.disk)
    (apart : Apart first second host.disk)
    (ran : replaceBoth checksumLock symbolLock checksums symbols host = (.ok (kept, keptToo), later)) :
    later.disk.find? first = some (.file (Document.bytes kept) 0) ∧
      later.disk.find? second = some (.file (Document.bytes keptToo) 0) := by
  rcases stages_cases guards guardsToo apart ran with ⟨_, ⟨⟩, _⟩ |
    ⟨_, _, write, writeToo, temporary, temporaryToo, ready, _, _, waits, waitsToo, temporaries, _, ran⟩
  rcases commits_cases waits waitsToo guards.fits guardsToo.fits apart.distinct
      apart.firstSpared.2.apart apart.secondSpared.1.apart temporaries ran with
    ⟨⟨⟩, stands⟩ | ⟨⟨⟩, _⟩
  exact stands

theorem stampedAt_of_replaceBoth {kept : ChecksumBaseline × SymbolBaseline}
    (guards : checksumLock.Guards first host.disk) (guardsToo : symbolLock.Guards second host.disk)
    (apart : Apart first second host.disk)
    (ran : replaceBoth checksumLock symbolLock checksums symbols host = (.ok kept, later)) :
    Document.StampedAt checksums first host.disk host.now later.disk ∧
      Document.StampedAt symbols second host.disk host.now later.disk := by
  rcases stages_cases guards guardsToo apart ran with ⟨_, ⟨⟩, _⟩ |
    ⟨kept, keptToo, write, writeToo, temporary, temporaryToo, ready, ⟨between, leaves, rfl⟩,
      ⟨betweenToo, leavesToo, rfl⟩, waits, waitsToo, temporaries, _, ran⟩
  rcases commits_cases waits waitsToo guards.fits guardsToo.fits apart.distinct
      apart.firstSpared.2.apart apart.secondSpared.1.apart temporaries ran with
    ⟨_, replaced, replacedToo⟩ | ⟨⟨⟩, _⟩
  exact ⟨⟨between, leaves, replaced⟩, ⟨betweenToo, leavesToo, replacedToo⟩⟩

theorem Ends.transfer {α : Type} {outcome : Outcome α} {spared wider : Location → Prop}
    {before start ended after : Disk} (ends : Ends checksums symbols first second wider start ended outcome)
    (within : ∀ location, spared location → wider location)
    (begins : ∀ location, spared location → start.find? location = before.find? location)
    (finishes : ∀ location, spared location → after.find? location = ended.find? location)
    (firstSpared : spared first) (secondSpared : spared second) :
    Ends checksums symbols first second spared before after outcome := by
  cases ends with
  | both stands standsToo =>
      obtain ⟨prior, now, stands⟩ := stands
      obtain ⟨priorToo, nowToo, standsToo⟩ := standsToo
      exact .both ⟨prior, now, (finishes _ firstSpared).trans stands⟩
        ⟨priorToo, nowToo, (finishes _ secondSpared).trans standsToo⟩
  | neither kept =>
      refine .neither fun location spared => ?_
      rw [finishes location spared, kept location (within location spared), begins location spared]
  | firstAlone blocked stands kept =>
      obtain ⟨prior, now, stands⟩ := stands
      rw [begins second secondSpared] at blocked
      refine .firstAlone blocked ⟨prior, now, (finishes _ firstSpared).trans stands⟩ ?_
      intro location spared elsewhere
      rw [finishes location spared, kept location (within location spared) elsewhere,
        begins location spared]

theorem writeLocked_ends {expectation : Expectation} {extraction : Extraction}
    {outcome : Outcome BaselineSummary} (guards : checksumLock.Guards first host.disk)
    (guardsToo : symbolLock.Guards second host.disk) (apart : Apart first second host.disk)
    (ran : engine.writeLocked expectation checksums extraction checksumLock symbolLock host =
      (outcome, later)) :
    Ends checksums (.fresh (Location.path engine.boundary.root).text extraction.symbols) first second
      (BothSpare first second host.disk) host.disk later.disk outcome := by
  rcases Action.read_bind_cases ran with ⟨error, rfl, rfl⟩ | ⟨_, _, ran⟩
  · exact .neither fun _ _ => rfl
  rcases Action.bind_cases ran with ⟨error, rfl, failed⟩ | ⟨⟨kept, keptToo⟩, ended, replaced, finished⟩
  · cases replaceBoth_ends guards guardsToo apart failed with
    | neither kept => exact .neither kept
    | firstAlone blocked stands kept => exact .firstAlone blocked stands kept
  · cases finished
    cases replaceBoth_ends guards guardsToo apart replaced with
    | both stands standsToo => exact .both stands standsToo

end Replacing

/-! ## Under both locks -/

/-- The place of a baseline, if there is one, spares the location. -/
def SparesFor (engine : Engine) (disk : Disk) (name : String) (location : Location) : Prop :=
  ∀ place, engine.baselinePlace disk name = .ok place → (Target.located place).Spares location disk

/-- Both places spare the location at the moments at which their locks are taken. -/
def Spares (engine : Engine) (host : Host) (location : Location) : Prop :=
  engine.SparesFor host.disk checksumBaselineName location ∧
    engine.SparesFor (engine.lockedFor checksumBaselineName host).disk symbolBaselineName location

/-- A baseline is found at the place, before all or when its lock is taken. -/
inductive Finds (engine : Engine) (host : Host) : Location → Prop where
  | checksums {place : Location} :
      engine.baselinePlace host.disk checksumBaselineName = .ok place → Finds engine host place
  | symbols {place : Location} :
      engine.baselinePlace host.disk symbolBaselineName = .ok place → Finds engine host place
  | symbolsLocked {place : Location} :
      engine.baselinePlace (engine.lockedFor checksumBaselineName host).disk symbolBaselineName =
        .ok place → Finds engine host place

/-- Neither baseline stands in the way of what is done to lock and replace the other. -/
def Untangled (engine : Engine) (host : Host) : Prop :=
  ∀ place, engine.Finds host place → engine.Spares host place

section Holding

variable {name : String} {later : Host}

theorem leaves_lockedFor {location : Location} (spares : engine.SparesFor host.disk name location) :
    host.disk.Leaves location (engine.lockedFor name host).disk := by
  rw [lockedFor]
  split
  next place found => exact Lock.leaves_acquire (spares place found)
  next => exact refl_of (Disk.Leaves location) host.disk

theorem holding_cases {α : Type} {body : Lock → Action α} {outcome : Outcome α}
    (ran : engine.holding name body host = (outcome, later)) :
    (∃ error, outcome = .error error ∧
        ∀ location, engine.SparesFor host.disk name location → host.disk.Leaves location later.disk) ∨
      ∃ place lock ended, engine.baselinePlace host.disk name = .ok place ∧
        Lock.acquire (.located place) engine.settings.lockTimeout host =
          (.ok lock, engine.lockedFor name host) ∧
        body lock (engine.lockedFor name host) = (outcome, ended) ∧
        later = { ended with disk := lock.drop ended.disk } := by
  rcases Action.read_bind_cases ran with ⟨error, rfl, rfl⟩ | ⟨place, placed, ran⟩
  · exact .inl ⟨error, rfl, fun location _ => refl_of (Disk.Leaves location) later.disk⟩
  rcases Lock.holding_cases ran with ⟨error, rfl, refused⟩ | ⟨lock, locked, ended, acquired, worked, rfl⟩
  · exact .inl ⟨error, rfl, fun _ spares => (Lock.leaves_acquire (spares place placed)).of_ran refused⟩
  · have same : engine.lockedFor name host = locked := by
      rw [lockedFor, placed]
      exact congrArg Prod.snd acquired
    subst same
    exact .inr ⟨place, lock, ended, placed, acquired, worked, rfl⟩

/-- Both locks are held for places that are not in the way of each other, and whatever is spared is as
it was when the run began. -/
structure Held (engine : Engine) (host locked : Host) (lock lockToo : Lock)
    (first second : Location) : Prop where
  placed : engine.baselinePlace host.disk checksumBaselineName = .ok first
  placedToo : engine.baselinePlace (engine.lockedFor checksumBaselineName host).disk
    symbolBaselineName = .ok second
  guards : lock.Guards first locked.disk
  guardsToo : lockToo.Guards second locked.disk
  apart : Apart first second locked.disk
  leaves : ∀ location, engine.Spares host location → host.disk.Leaves location locked.disk
  spares : ∀ location, engine.Spares host location → BothSpare first second locked.disk location
  now : locked.now = host.now

/-- Locks that are taken one after the other for untangled baselines are both held. -/
theorem held_of_acquired {lock lockToo : Lock} {first second : Location}
    (untangled : engine.Untangled host)
    (placed : engine.baselinePlace host.disk checksumBaselineName = .ok first)
    (acquired : Lock.acquire (.located first) engine.settings.lockTimeout host =
      (.ok lock, engine.lockedFor checksumBaselineName host))
    (placedToo : engine.baselinePlace (engine.lockedFor checksumBaselineName host).disk
      symbolBaselineName = .ok second)
    (acquiredToo : Lock.acquire (.located second) engine.settings.lockTimeout
      (engine.lockedFor checksumBaselineName host) =
        (.ok lockToo,
          engine.lockedFor symbolBaselineName (engine.lockedFor checksumBaselineName host))) :
    engine.Held host (engine.lockedFor symbolBaselineName (engine.lockedFor checksumBaselineName host))
      lock lockToo first second := by
  have firstSpared := untangled first (.checksums placed)
  have secondSpared := untangled second (.symbolsLocked placedToo)
  have sheltered := (firstSpared.1 first placed).sheltered
  have shelteredToo := (secondSpared.2 second placedToo).sheltered
  have leavesOne : ∀ location, engine.Spares host location →
      host.disk.Leaves location (engine.lockedFor checksumBaselineName host).disk :=
    fun location spared => leaves_lockedFor spared.1
  have leavesToo : ∀ location, engine.Spares host location →
      (engine.lockedFor checksumBaselineName host).disk.Leaves location
        (engine.lockedFor symbolBaselineName (engine.lockedFor checksumBaselineName host)).disk :=
    fun location spared => leaves_lockedFor spared.2
  have spares : ∀ location, engine.Spares host location → BothSpare first second
      (engine.lockedFor symbolBaselineName (engine.lockedFor checksumBaselineName host)).disk
      location := by
    intro location spared
    have between : BothSpare first second (engine.lockedFor checksumBaselineName host).disk location :=
      ⟨(spared.1 first placed).later (leavesOne location spared), spared.2 second placedToo⟩
    exact between.later (leavesToo location spared)
  exact {
    placed
    placedToo
    guards := (Lock.guards_of_acquire sheltered acquired).later (leavesToo first firstSpared).changes
    guardsToo := Lock.guards_of_acquire shelteredToo acquiredToo
    apart := ⟨Lock.ne_of_acquire sheltered acquired acquiredToo, spares first firstSpared,
      spares second secondSpared⟩
    leaves := fun location spared => trans_of (Disk.Leaves location) (leavesOne location spared)
      (leavesToo location spared)
    spares
    now := (Lock.now_of_acquire acquiredToo).trans (Lock.now_of_acquire acquired) }

/-- The run is given up before both locks are held, and all that is spared is as before, or the
baselines are written under both locks. -/
theorem replaceBaselines_held {expectation : Expectation} {outcome : Outcome BaselineSummary}
    (untangled : engine.Untangled host)
    (ran : engine.replaceBaselines expectation host = (outcome, later)) :
    (∃ error, outcome = .error error ∧
        ∀ location, engine.Spares host location → host.disk.Leaves location later.disk) ∨
      ∃ checksums extraction first second lock lockToo locked finished,
        engine.snapshots host = .ok (checksums, extraction) ∧
        engine.Held host locked lock lockToo first second ∧
        engine.writeLocked expectation checksums extraction lock lockToo locked =
          (outcome, finished) ∧
        later.disk = lock.drop (lockToo.drop finished.disk) := by
  rcases Action.read_bind_cases ran with ⟨error, rfl, rfl⟩ | ⟨_, _, ran⟩
  · exact .inl ⟨error, rfl, fun location _ => refl_of (Disk.Leaves location) later.disk⟩
  rcases Action.read_bind_cases ran with ⟨error, rfl, rfl⟩ | ⟨⟨checksums, extraction⟩, taken, ran⟩
  · exact .inl ⟨error, rfl, fun location _ => refl_of (Disk.Leaves location) later.disk⟩
  rcases holding_cases ran with ⟨error, rfl, leaves⟩ | ⟨first, lock, ended, placed, acquired, held, rfl⟩
  · exact .inl ⟨error, rfl, fun location spared => leaves location spared.1⟩
  rcases holding_cases held with
    ⟨error, rfl, leaves⟩ | ⟨second, lockToo, finished, placedToo, acquiredToo, wrote, rfl⟩
  · refine .inl ⟨error, rfl, fun location spared => ?_⟩
    have sheltered := ((untangled first (.checksums placed)).1 first placed).sheltered
    have leavesToo := leaves location spared.2
    have guards := (Lock.guards_of_acquire sheltered acquired).later leavesToo.changes
    exact trans_of (Disk.Leaves location) (leaves_lockedFor spared.1)
      (trans_of (Disk.Leaves location) leavesToo (guards.leaves_drop (spared.1 first placed).apart))
  exact .inr ⟨checksums, extraction, first, second, lock, lockToo, _, finished, taken,
    held_of_acquired untangled placed acquired placedToo acquiredToo, wrote, rfl⟩

section Held

variable {locked finished : Host} {lock lockToo : Lock} {first second : Location}
  {expectation : Expectation} {checksums : ChecksumBaseline} {extraction : Extraction}
  {outcome : Outcome BaselineSummary}

theorem Held.changes (held : engine.Held host locked lock lockToo first second)
    (wrote : engine.writeLocked expectation checksums extraction lock lockToo locked =
      (outcome, finished)) : Disk.ChangesBelow [] locked.disk finished.disk := by
  have stays : (engine.writeLocked expectation checksums extraction lock lockToo).StaysBelow []
      locked :=
    stays_writeLocked (held.guards.target ▸ held.guards.sheltered)
      (held.guardsToo.target ▸ held.guardsToo.sheltered)
  exact stays.changesBelow wrote

theorem Held.drops (held : engine.Held host locked lock lockToo first second)
    (changes : Disk.ChangesBelow [] locked.disk finished.disk) {location : Location}
    (spared : engine.Spares host location) :
    finished.disk.Leaves location (lock.drop (lockToo.drop finished.disk)) := by
  have dropsToo := (held.guardsToo.later changes).leaves_drop (held.spares location spared).2.apart
  exact trans_of (Disk.Leaves location) dropsToo
    ((held.guards.later (changes.trans dropsToo.changes)).leaves_drop
      (held.spares location spared).1.apart)

end Held

/-- The run is given up before both locks are held, and all that is spared is as before, or it ends in
one of the three ways. -/
theorem replaceBaselines_cases {expectation : Expectation} {outcome : Outcome BaselineSummary}
    (untangled : engine.Untangled host)
    (ran : engine.replaceBaselines expectation host = (outcome, later)) :
    (∃ error, outcome = .error error ∧
        ∀ location, engine.Spares host location →
          later.disk.find? location = host.disk.find? location) ∨
      ∃ checksums extraction first second, engine.snapshots host = .ok (checksums, extraction) ∧
        engine.baselinePlace host.disk checksumBaselineName = .ok first ∧
        engine.baselinePlace (engine.lockedFor checksumBaselineName host).disk symbolBaselineName =
          .ok second ∧
        (Target.located first).Sheltered [] later.disk ∧
        (Target.located second).Sheltered [] later.disk ∧
        Ends checksums (.fresh (Location.path engine.boundary.root).text extraction.symbols) first
          second (engine.Spares host) host.disk later.disk outcome := by
  rcases replaceBaselines_held untangled ran with ⟨error, failed, leaves⟩ |
    ⟨checksums, extraction, first, second, lock, lockToo, locked, finished, taken, held, wrote, dropped⟩
  · exact .inl ⟨error, failed, fun location spared => (leaves location spared).same⟩
  have firstSpared := untangled first (.checksums held.placed)
  have secondSpared := untangled second (.symbolsLocked held.placedToo)
  have changes := held.changes wrote
  have drops : ∀ location, engine.Spares host location → finished.disk.Leaves location later.disk :=
    fun location spared => dropped ▸ held.drops changes spared
  have changesToo := changes.trans (drops first firstSpared).changes
  exact .inr ⟨checksums, extraction, first, second, taken, held.placed, held.placedToo,
    held.guards.sheltered.later changesToo, held.guardsToo.sheltered.later changesToo,
    (writeLocked_ends held.guards held.guardsToo held.apart wrote).transfer held.spares
      (fun location spared => (held.leaves location spared).same)
      (fun location spared => (drops location spared).same) firstSpared secondSpared⟩

/-- When a run succeeds, the baselines were as expected before, and both documents stand in their
places, which fit, with the stamps of that time. -/
theorem stampedAt_of_replaceBaselines {expectation : Expectation} {summary : BaselineSummary}
    (untangled : engine.Untangled host)
    (ran : engine.replaceBaselines expectation host = (.ok summary, later)) :
    engine.expectBaselines expectation host.disk = .ok () ∧
      ∃ checksums extraction first second, engine.snapshots host = .ok (checksums, extraction) ∧
        engine.baselinePlace host.disk checksumBaselineName = .ok first ∧
        engine.baselinePlace (engine.lockedFor checksumBaselineName host).disk symbolBaselineName =
          .ok second ∧
        first.Fits ∧ second.Fits ∧
        Document.StampedAt checksums first host.disk host.now later.disk ∧
        Document.StampedAt
          (SymbolBaseline.fresh (Location.path engine.boundary.root).text extraction.symbols) second
          host.disk host.now later.disk := by
  rcases Action.read_bind_cases ran with ⟨_, ⟨⟩, _⟩ | ⟨_, expected, _⟩
  refine ⟨expected, ?_⟩
  rcases replaceBaselines_held untangled ran with ⟨_, ⟨⟩, _⟩ |
    ⟨checksums, extraction, first, second, lock, lockToo, locked, finished, taken, held, wrote, dropped⟩
  have firstSpared := untangled first (.checksums held.placed)
  have secondSpared := untangled second (.symbolsLocked held.placedToo)
  have drops : ∀ location, engine.Spares host location → finished.disk.Leaves location later.disk :=
    fun location spared => dropped ▸ held.drops (held.changes wrote) spared
  rcases Action.read_bind_cases wrote with ⟨_, ⟨⟩, _⟩ | ⟨_, _, wrote⟩
  rcases Action.bind_cases wrote with ⟨_, ⟨⟩, _⟩ | ⟨_, _, replaced, finish⟩
  cases finish
  obtain ⟨stamps, stampsToo⟩ :=
    stampedAt_of_replaceBoth held.guards held.guardsToo held.apart replaced
  rw [held.now] at stamps stampsToo
  exact ⟨checksums, extraction, first, second, taken, held.placed, held.placedToo, held.guards.fits,
    held.guardsToo.fits, stamps.transfer (held.leaves first firstSpared) (drops first firstSpared),
    stampsToo.transfer (held.leaves second secondSpared) (drops second secondSpared)⟩

end Holding

theorem replaces_of_writes {run : Action BaselineSummary}
    (writes : run = engine.update ∨ ∃ reset, run = engine.create reset) :
    ∃ expectation, run = engine.replaceBaselines expectation := by
  rcases writes with rfl | ⟨reset, rfl⟩
  · exact ⟨_, rfl⟩
  · exact ⟨_, rfl⟩

/-- Baselines are found, if at all, under their own names in a directory behind no link. -/
structure SideBySide (engine : Engine) (host : Host) (directory : Location) : Prop where
  named : ∀ name ∈ directory, IsName name
  free : host.disk.LinkFree directory
  checksums : ∀ place, engine.baselinePlace host.disk checksumBaselineName = .ok place →
    place = directory ++ ["repo-baseline.json"]
  symbols : ∀ place, engine.baselinePlace host.disk symbolBaselineName = .ok place →
    place = directory ++ ["symbol-baseline.json"]
  symbolsLocked : ∀ place,
    engine.baselinePlace (engine.lockedFor checksumBaselineName host).disk symbolBaselineName =
      .ok place → place = directory ++ ["symbol-baseline.json"]

namespace SideBySide

variable {directory : Location} (beside : engine.SideBySide host directory)

include beside

theorem shelters : host.disk.Shelters [] directory :=
  ⟨beside.named, List.nil_prefix, beside.free, nofun⟩

theorem shelters_locked : (engine.lockedFor checksumBaselineName host).disk.Shelters [] directory := by
  rw [lockedFor]
  split
  next place found =>
    have sheltered : (Target.located place).Sheltered [] host.disk :=
      ⟨directory, _, congrArg Target.located (beside.checksums place found), by decide,
        beside.shelters⟩
    exact Disk.ChangesBelow.shelters (Lock.stays_acquire sheltered) beside.shelters
  next => exact beside.shelters

theorem eq_of_finds {place : Location} (found : engine.Finds host place) :
    place = directory ++ ["repo-baseline.json"] ∨ place = directory ++ ["symbol-baseline.json"] := by
  cases found with
  | checksums found => exact .inl (beside.checksums place found)
  | symbols found => exact .inr (beside.symbols place found)
  | symbolsLocked found => exact .inr (beside.symbolsLocked place found)

/-- A location that attends neither baseline is spared, unless it is missing on the way to them. -/
theorem spares {location : Location}
    (apart : ∀ name, name = "repo-baseline.json" ∨ name = "symbol-baseline.json" →
      ¬ Attends location (directory ++ [name]))
    (clear : host.disk.find? location = none → ¬ location <+: directory) :
    engine.Spares host location := by
  have checksumsSpare : engine.SparesFor host.disk checksumBaselineName location := by
    intro place placed
    obtain rfl := beside.checksums place placed
    exact ⟨directory, _, rfl, by decide, beside.shelters, apart _ (.inl rfl), clear⟩
  refine ⟨checksumsSpare, fun place placed => ?_⟩
  obtain rfl := beside.symbolsLocked place placed
  refine ⟨directory, _, rfl, by decide, beside.shelters_locked, apart _ (.inr rfl), ?_⟩
  rwa [(leaves_lockedFor checksumsSpare).same]

theorem spares_baseline {name : String}
    (either : name = "repo-baseline.json" ∨ name = "symbol-baseline.json") :
    engine.Spares host (directory ++ [name]) := by
  have clear : ¬ directory ++ [name] <+: directory := by
    intro within
    have shorter := within.length_le
    rw [List.length_append, List.length_singleton] at shorter
    omega
  refine beside.spares ?_ fun _ => clear
  rcases either with rfl | rfl
  · rintro name (rfl | rfl)
    · exact attends_concat_iff.not.2 (by decide)
    · exact attends_concat_iff.not.2 (by decide)
  · rintro name (rfl | rfl)
    · exact attends_concat_iff.not.2 (by decide)
    · exact attends_concat_iff.not.2 (by decide)

theorem untangled : engine.Untangled host := by
  intro place found
  rcases beside.eq_of_finds found with rfl | rfl
  · exact beside.spares_baseline (.inl rfl)
  · exact beside.spares_baseline (.inr rfl)

end SideBySide

theorem untangled_of_side_by_side {directory : Location} (named : ∀ name ∈ directory, IsName name)
    (free : host.disk.LinkFree directory)
    (checksums : engine.baselinePlace host.disk checksumBaselineName =
      .ok (directory ++ ["repo-baseline.json"]))
    (symbols : engine.baselinePlace host.disk symbolBaselineName =
      .ok (directory ++ ["symbol-baseline.json"]))
    (still : engine.baselinePlace (engine.lockedFor checksumBaselineName host).disk
      symbolBaselineName = .ok (directory ++ ["symbol-baseline.json"])) :
    engine.Untangled host :=
  SideBySide.untangled {
    named
    free
    checksums := fun _ found => Except.ok.inj (found.symm.trans checksums)
    symbols := fun _ found => Except.ok.inj (found.symm.trans symbols)
    symbolsLocked := fun _ found => Except.ok.inj (found.symm.trans still) }

/-- Both documents are replaced or none is: an error leaves what stands at the places of both
baselines as it was, unless a directory stands at the place of the symbol baseline and the other
document is already in its place. -/
theorem create_update_all_or_nothing (untangled : engine.Untangled host) {run : Action BaselineSummary}
    (writes : run = engine.update ∨ ∃ reset, run = engine.create reset) :
    (∀ summary after, run host = (.ok summary, after) →
      ∃ checksums extraction first second, engine.snapshots host = .ok (checksums, extraction) ∧
        engine.baselinePlace host.disk checksumBaselineName = .ok first ∧
        engine.baselinePlace (engine.lockedFor checksumBaselineName host).disk symbolBaselineName =
          .ok second ∧
        Document.StandsAt checksums first after.disk ∧
        Document.StandsAt
          (SymbolBaseline.fresh (Location.path engine.boundary.root).text extraction.symbols) second
          after.disk) ∧
    ∀ error after, run host = (.error error, after) →
      (∀ place, engine.Finds host place → after.disk.find? place = host.disk.find? place) ∨
      error = .disk .isDirectory ∧ ∃ first second,
        engine.baselinePlace host.disk checksumBaselineName = .ok first ∧
        engine.baselinePlace (engine.lockedFor checksumBaselineName host).disk symbolBaselineName =
          .ok second ∧
        host.disk.find? second = some .directory ∧
        (∃ checksums extraction, engine.snapshots host = .ok (checksums, extraction) ∧
          Document.StandsAt checksums first after.disk) ∧
        ∀ place, engine.Finds host place → place ≠ first →
          after.disk.find? place = host.disk.find? place := by
  obtain ⟨expectation, rfl⟩ := replaces_of_writes writes
  constructor
  · intro summary after ran
    rcases replaceBaselines_cases untangled ran with ⟨_, ⟨⟩, _⟩ |
      ⟨checksums, extraction, first, second, taken, placed, placedToo, _, _, ends⟩
    cases ends with
    | both stands standsToo =>
        exact ⟨checksums, extraction, first, second, taken, placed, placedToo, stands, standsToo⟩
  · intro error after ran
    rcases replaceBaselines_cases untangled ran with ⟨_, _, kept⟩ |
      ⟨checksums, extraction, first, second, taken, placed, placedToo, _, _, ends⟩
    · exact .inl fun place found => kept place (untangled place found)
    cases ends with
    | neither kept => exact .inl fun place found => kept place (untangled place found)
    | firstAlone blocked stands kept =>
        exact .inr ⟨rfl, first, second, placed, placedToo, blocked,
          ⟨checksums, extraction, taken, stands⟩,
          fun place found elsewhere => kept place (untangled place found) elsewhere⟩

/-- The directory in which `plainEngine` keeps its baselines. -/
def plainMemory : Location := ["project", ".driftline", "memory"]

/-- A project with an empty file for one baseline and an entry beside it. -/
def memoryDisk (name : String) (entry : Entry) : Disk :=
  let state := Boundary.leavingDisk.put ["project"] ".driftline" .directory
  let memory := state.put ["project", ".driftline"] "memory" .directory
  (memory.put plainMemory "repo-baseline.json" (.file .empty 0)).put plainMemory name entry

/-- A run that finds the second lock taken has made nothing of the first baseline. -/
theorem create_update_all_or_nothing_locked :
    let host := plainHost (memoryDisk "symbol-baseline.json.lock" (.file .empty 0))
    plainEngine.Untangled host ∧
      (plainEngine.create true host).1 =
        .error (.locked "symbol-baseline.json.lock" defaultLockTimeout) ∧
      (plainEngine.create true host).2.disk.find? (plainMemory ++ ["repo-baseline.json"]) =
        some (.file .empty 0) := by
  intro host
  have checksums : plainEngine.baselinePlace host.disk checksumBaselineName =
      .ok (plainMemory ++ ["repo-baseline.json"]) := by
    decide +kernel
  have untangled : plainEngine.Untangled host :=
    untangled_of_side_by_side (by decide) (by decide +kernel) checksums (by decide +kernel)
      (by decide +kernel)
  have refused : (plainEngine.create true host).1 =
      .error (.locked "symbol-baseline.json.lock" defaultLockTimeout) := by
    decide +kernel
  have stood : host.disk.find? (plainMemory ++ ["repo-baseline.json"]) = some (.file .empty 0) := by
    decide +kernel
  clear_value host
  refine ⟨untangled, refused, ?_⟩
  rcases (create_update_all_or_nothing untangled (.inr ⟨true, rfl⟩)).2 _ _
    (Action.eq_of_outcome refused) with kept | ⟨impossible, _⟩
  · exact (kept _ (.checksums checksums)).trans stood
  · cases impossible

/-- The update fails, and yet the first baseline is no longer the empty file that it was. -/
theorem update_replaces_one :
    let host := plainHost (memoryDisk "symbol-baseline.json" .directory)
    (plainEngine.update host).1 = .error (.disk .isDirectory) ∧
      host.disk.find? (plainMemory ++ ["repo-baseline.json"]) = some (.file .empty 0) ∧
      (plainEngine.update host).2.disk.find? (plainMemory ++ ["repo-baseline.json"]) ≠
        some (.file .empty 0) := by
  decide +kernel

end Engine

end SourceBaseline
