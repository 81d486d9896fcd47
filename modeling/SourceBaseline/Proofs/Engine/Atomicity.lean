import SourceBaseline.Proofs.Engine.Readback
import SourceBaseline.Proofs.Renewal
import SourceBaseline.Proofs.Written

/-!
# Readers of a baseline

Readers take no lock. As long as neither baseline is in the way of what is done to lock and replace the
other, whoever reads one of them between two calls of a run, or after a run that was stopped there for
good, gets what stood there before or the whole of the new document.
-/

set_option autoImplicit false

namespace SourceBaseline.Engine

variable {engine : Engine} {host : Host} {first second location : Location} {new : ByteArray → Prop}

/-- The whole of the new document that a run puts in the place of a baseline. -/
inductive Replaces (engine : Engine) (host : Host) (place : Location) : ByteArray → Prop where
  | checksums {checksums : ChecksumBaseline} {extraction : Extraction} :
      engine.snapshots host = .ok (checksums, extraction) →
      engine.baselinePlace host.disk checksumBaselineName = .ok place →
      Replaces engine host place (Document.renewal checksums place host)
  | symbols {checksums : ChecksumBaseline} {extraction : Extraction} :
      engine.snapshots host = .ok (checksums, extraction) →
      engine.baselinePlace (engine.lockedFor checksumBaselineName host).disk symbolBaselineName =
        .ok place →
      Replaces engine host place (Document.renewal
        (SymbolBaseline.fresh (Location.path engine.boundary.root).text extraction.symbols) place host)

/-- Of two writes that wait, each renews its place when it takes it, and nothing else that is spared. -/
theorem along_commits {α : Type} {value : α} {write writeToo : StagedWrite}
    {temporary temporaryToo : Location} {content contentToo : ByteArray}
    (waits : write.Waits first temporary content host.disk)
    (waitsToo : writeToo.Waits second temporaryToo contentToo host.disk) (fits : first.Fits)
    (fitsToo : second.Fits) (temporaries : temporary ≠ temporaryToo) (own : first ≠ temporaryToo)
    (unused : write.temporary ≠ .located location) (unusedToo : writeToo.temporary ≠ .located location)
    (written : location = first → new content) (writtenToo : location = second → new contentToo) :
    (do
      Calls.onError (Calls.call write.commit) (Calls.call writeToo.discard)
      Calls.call writeToo.commit
      pure value : Calls α).Along (Disk.Renews location new) host := by
  have commits := StagedWrite.renews_commit waits fits unused written
  refine Calls.Along.bind ?_ ?_
  · refine (Calls.along_call commits).onError ?_
    intro _ ended failed
    have changes := (commits.of_ran failed).changes
    exact Calls.along_call
      (StagedWrite.leaves_discard (waitsToo.pending.later changes) unusedToo).renews
  intro _ later committed
  rw [Calls.action_onError] at committed
  have still : host.disk.Leaves temporaryToo later.disk := by
    refine (StagedWrite.leaves_commit waits.pending ?_ ?_).of_ran (Action.eq_ok_of_onError committed)
    · rw [waits.holds]
      rintro ⟨⟩
      exact temporaries rfl
    · rw [waits.target]
      rintro ⟨⟩
      exact own rfl
  have commitsToo := StagedWrite.renews_commit (waitsToo.later still.changes still.same) fitsToo
    unusedToo writtenToo
  exact (Calls.along_call commitsToo).bind fun _ _ _ => Calls.along_pure value

section Locked

variable {checksumLock symbolLock : Lock} {checksums : ChecksumBaseline} {symbols : SymbolBaseline}
  {locked : Host}

/-- Under both locks each write that takes its place renews it, and leaves alone what else is spared. -/
theorem along_replaceBoth (guards : checksumLock.Guards first locked.disk)
    (guardsToo : symbolLock.Guards second locked.disk) (apart : Apart first second locked.disk)
    (leaves : host.disk.Leaves first locked.disk) (leavesToo : host.disk.Leaves second locked.disk)
    (now : locked.now = host.now) (free : host.disk.LinkFree first)
    (freeToo : host.disk.LinkFree second) (spared : BothSpare first second locked.disk location)
    (written : location = first → new (Document.renewal checksums first host))
    (writtenToo : location = second → new (Document.renewal symbols second host)) :
    (replaceBothCalls checksumLock symbolLock checksums symbols).Along (Disk.Renews location new)
      locked := by
  have stages : ∀ location, BothSpare first second locked.disk location →
      (Document.stage checksumLock checksums).Relates (Disk.Leaves location) locked := by
    intro location spared
    apply Document.leaves_stage
    rw [guards.target]
    exact spared.1
  refine (Calls.along_call (stages location spared).renews).bind ?_
  rintro ⟨kept, write⟩ one staged
  have staying := fun location spared => (stages location spared).of_ran staged
  obtain ⟨nowThen, temporary, waits, _⟩ := Document.awaits_of_stage guards leaves now free staged
  have guardsThen := guardsToo.later (staying first apart.firstSpared).changes
  have sparedThen := spared.later (staying location spared)
  have stagesToo : (Document.stage symbolLock symbols).Relates (Disk.Leaves location) one := by
    apply Document.leaves_stage
    rw [guardsThen.target]
    exact sparedThen.2
  have unused : write.temporary ≠ .located location :=
    waits.pending.elsewhere (waits.target ▸ sparedThen.1)
  -- The first write is discarded if the second document cannot be staged.
  refine Calls.Along.bind ?_ ?_
  · refine (Calls.along_call stagesToo.renews).onError ?_
    intro _ ended failed
    have changes := (stagesToo.of_ran failed).changes
    exact Calls.along_call
      (StagedWrite.leaves_discard (waits.pending.later changes) unused).renews
  rintro ⟨keptToo, writeToo⟩ two stagedToo
  rw [Calls.action_onError] at stagedToo
  have stagedToo := Action.eq_ok_of_onError stagedToo
  have leavesThen := trans_of (Disk.Leaves second) leavesToo (staying second apart.secondSpared)
  obtain ⟨_, temporaryToo, waitsToo, absent, standing⟩ :=
    Document.awaits_of_stage guardsThen leavesThen nowThen freeToo stagedToo
  have stayingToo := stagesToo.of_ran stagedToo
  refine along_commits (waits.later stayingToo.changes ?_) waitsToo guards.fits guardsToo.fits ?_ ?_
    unused ?_ written writtenToo
  · rw [waits.stands]
    exact standing _ _ waits.stands
  · rintro rfl
    cases waits.stands.symm.trans absent
  · rintro rfl
    exact apart.firstSpared.2.apart waitsToo.attends
  · exact waitsToo.pending.elsewhere (waitsToo.target ▸ (sparedThen.later stayingToo).2)

end Locked

theorem along_holding {α : Type} {name : String} {body : Lock → Calls α}
    (spares : engine.SparesFor host.disk name location)
    (renews : ∀ place lock, engine.baselinePlace host.disk name = .ok place →
      Lock.acquire (.located place) engine.settings.lockTimeout host =
        (.ok lock, engine.lockedFor name host) →
      (body lock).Along (Disk.Renews location new) (engine.lockedFor name host)) :
    (engine.holdingCalls name body).Along (Disk.Renews location new) host := by
  refine Calls.along_ask_bind fun place placed => Lock.along_holding (spares place placed) ?_
  intro lock locked acquired
  have same : engine.lockedFor name host = locked := by
    rw [lockedFor, placed]
    exact congrArg Prod.snd acquired
  subst same
  exact renews place lock placed acquired

theorem along_replaceBaselines {place : Location} (expectation : Expectation)
    (untangled : engine.Untangled host)
    (straight : ∀ place, engine.Finds host place → host.disk.LinkFree place)
    (found : engine.Finds host place) :
    (engine.replaceBaselinesCalls expectation).Along
      (Disk.Renews place (engine.Replaces host place)) host := by
  have spared := untangled place found
  refine Calls.along_ask_bind fun _ _ => Calls.along_ask_bind ?_
  rintro ⟨checksums, extraction⟩ taken
  refine along_holding spared.1 fun first lock placed acquired => ?_
  refine along_holding spared.2 fun second lockToo placedToo acquiredToo => ?_
  have held := held_of_acquired untangled placed acquired placedToo acquiredToo
  have firstFound : engine.Finds host first := .checksums placed
  have secondFound : engine.Finds host second := .symbolsLocked placedToo
  refine Calls.along_ask_bind fun _ _ => Calls.Along.bind ?_ fun _ _ _ => Calls.along_pure _
  refine along_replaceBoth held.guards held.guardsToo held.apart
    (held.leaves first (untangled first firstFound))
    (held.leaves second (untangled second secondFound)) held.now (straight first firstFound)
    (straight second secondFound) (held.spares place spared) ?_ ?_
  · rintro rfl
    exact .checksums taken placed
  · rintro rfl
    exact .symbols taken placedToo

theorem isName_of_finds {place : Location} (found : engine.Finds host place) :
    ∀ name ∈ place, IsName name := by
  cases found with
  | checksums found => exact Boundary.isName_of_validate found
  | symbols found => exact Boundary.isName_of_validate found
  | symbolsLocked found => exact Boundary.isName_of_validate found

/-- The calls of `create`. -/
def createCalls (engine : Engine) (reset : Bool) : Calls BaselineSummary :=
  engine.replaceBaselinesCalls (if reset then .anything else .absent)

/-- The calls of `update`. -/
def updateCalls (engine : Engine) : Calls BaselineSummary :=
  engine.replaceBaselinesCalls .present

/-- Before, between and after the calls of a run that writes baselines, a reader of either place gets
the bytes of before or the whole new document, and so does a reader of a document that is saved alone. A
staged write that is discarded takes its temporary file with it and changes nothing else. -/
theorem readers_get_whole_documents (untangled : engine.Untangled host)
    (straight : ∀ place, engine.Finds host place → host.disk.LinkFree place) :
    (∀ (calls : Calls BaselineSummary) (run : Action BaselineSummary),
      (calls = engine.updateCalls ∧ run = engine.update ∨
        ∃ reset, calls = engine.createCalls reset ∧ run = engine.create reset) →
      calls.action = run ∧ ∀ place, engine.Finds host place → ∀ disk ∈ calls.seen host,
        disk.contents? (Location.route place) = host.disk.contents? (Location.route place) ∨
          ∃ content, engine.Replaces host place content ∧
            disk.contents? (Location.route place) = some content) ∧
    (∀ (α : Type) [Document α] (document : α) (target : Target) (place : Location) (timeout : Nat),
      target = .located place ∨ target = .written (Location.path place) →
      (Target.located place).Spares place host.disk → host.disk.LinkFree place →
      (Document.saveCalls target document timeout).action = Document.save target document timeout ∧
        ∀ disk ∈ (Document.saveCalls target document timeout).seen host,
          disk.contents? target.route = host.disk.contents? target.route ∨
            disk.contents? target.route = some (Document.renewal document place host)) ∧
    ∀ (target : Target) (content : ByteArray) (staged : StagedWrite) (later : Host),
      StagedWrite.stage target content host = (.ok staged, later) →
      ∃ temporary after, staged.discard later = (.ok (), { later with disk := after }) ∧
        later.disk.find? temporary = some (.file content 0) ∧
        (∀ location, after.find? location =
          if location = temporary then none else later.disk.find? location) ∧
        ∀ location bytes age, after.find? location = some (.file bytes age) ↔
          host.disk.find? location = some (.file bytes age) := by
  refine ⟨?_, ?_, fun _ _ _ _ ran => StagedWrite.discard_of_stage ran⟩
  · intro calls run writes
    obtain ⟨expectation, rfl, rfl⟩ : ∃ expectation, calls = engine.replaceBaselinesCalls expectation ∧
        run = engine.replaceBaselines expectation := by
      rcases writes with ⟨rfl, rfl⟩ | ⟨reset, rfl, rfl⟩
      · exact ⟨_, rfl, rfl⟩
      · exact ⟨_, rfl, rfl⟩
    refine ⟨engine.action_replaceBaselinesCalls expectation, fun place found disk member => ?_⟩
    have along := along_replaceBaselines expectation untangled straight found
    exact (along.seen disk member).reads (isName_of_finds found) (straight place found)
  · intro α _ document target place timeout names spares free
    refine ⟨Document.action_saveCalls target document timeout, fun disk member => ?_⟩
    rcases names with rfl | rfl
    · exact Document.reads_of_save spares free member
    · obtain ⟨directory, name, located, isName, shelters⟩ := spares.sheltered
      cases located
      have named := shelters.named_concat isName
      rw [← Target.spelled, Document.saveCalls_spelled named] at member
      rw [← Target.spelled, Target.route_spelled named]
      exact Document.reads_of_save spares free member

/-- A run over two baselines that stand, a save of one of them alone and a write that is taken back. -/
theorem readers_get_whole_documents_memory :
    let host := plainHost (memoryDisk "symbol-baseline.json" (.file "old".toUTF8 0))
    let place := plainMemory ++ ["symbol-baseline.json"]
    let document := SymbolBaseline.fresh "" (.ofList [])
    plainEngine.Untangled host ∧ (∀ place, plainEngine.Finds host place → host.disk.LinkFree place) ∧
      (plainEngine.create true host).1.toOption = some ⟨0, 0, []⟩ ∧
      (∀ disk ∈ (plainEngine.createCalls true).seen host,
        disk.contents? (Location.route place) = some "old".toUTF8 ∨
          ∃ content, plainEngine.Replaces host place content ∧
            disk.contents? (Location.route place) = some content) ∧
      (∀ disk ∈ (Document.saveCalls (.written (Location.path place)) document 0).seen host,
        disk.contents? (Location.path place).route = some "old".toUTF8 ∨
          disk.contents? (Location.path place).route =
            some (Document.renewal document place host)) ∧
      ∃ staged later after, StagedWrite.stage (.located place) .empty host = (.ok staged, later) ∧
        staged.discard later = (.ok (), after) ∧
        after.disk.find? place = some (.file "old".toUTF8 0) := by
  intro host place document
  have checksums : plainEngine.baselinePlace host.disk checksumBaselineName =
      .ok (plainMemory ++ ["repo-baseline.json"]) := by
    decide +kernel
  have symbols : plainEngine.baselinePlace host.disk symbolBaselineName = .ok place := by
    decide +kernel
  have still : plainEngine.baselinePlace (plainEngine.lockedFor checksumBaselineName host).disk
      symbolBaselineName = .ok place := by
    decide +kernel
  have beside : plainEngine.SideBySide host plainMemory := {
    named := by decide
    free := by decide +kernel
    checksums := fun _ found => Except.ok.inj (found.symm.trans checksums)
    symbols := fun _ found => Except.ok.inj (found.symm.trans symbols)
    symbolsLocked := fun _ found => Except.ok.inj (found.symm.trans still) }
  have straight : ∀ place, plainEngine.Finds host place → host.disk.LinkFree place := by
    intro other found
    rcases beside.eq_of_finds found with rfl | rfl
    · decide +kernel
    · decide +kernel
  have created : (plainEngine.create true host).1.toOption = some ⟨0, 0, []⟩ := by
    decide +kernel
  have old : host.disk.contents? (Location.route place) = some "old".toUTF8 := by
    decide +kernel
  have oldToo : host.disk.contents? (Location.path place).route = some "old".toUTF8 := by
    decide +kernel
  have stood : host.disk.find? place = some (.file "old".toUTF8 0) := by
    decide +kernel
  have isStaged : (StagedWrite.stage (.located place) .empty host).1.toOption.isSome = true := by
    decide +kernel
  have spares : (Target.located place).Spares place host.disk :=
    ⟨plainMemory, _, rfl, by decide, beside.shelters, attends_concat_iff.not.2 (by decide),
      fun missing => by cases stood.symm.trans missing⟩
  have untangled := beside.untangled
  have found : plainEngine.Finds host place := .symbols symbols
  obtain ⟨staged, same⟩ := Option.isSome_iff_exists.1 isStaged
  clear_value host
  obtain ⟨runs, saves, discards⟩ := readers_get_whole_documents untangled straight
  refine ⟨untangled, straight, created, ?_, ?_, ?_⟩
  · have reads := (runs _ _ (.inr ⟨true, rfl, rfl⟩)).2 place found
    rwa [old] at reads
  · have reads := (saves _ document _ place 0 (.inr rfl) spares (straight place found)).2
    rw [← oldToo]
    exact reads
  · have ran := Action.eq_of_toOption same
    obtain ⟨_, _, discarded, _, _, files⟩ := discards _ _ _ _ ran
    exact ⟨_, _, _, ran, discarded, (files place _ _).2 stood⟩

/-- The disk of `memoryDisk`, where the symbol baseline is a link to what looks like a stale lock, which
is itself locked. -/
def tangledDisk : Disk :=
  let stale := memoryDisk "repo-baseline.json.lock" (.file "one".toUTF8 1000)
  let linked := stale.put plainMemory "symbol-baseline.json" (.link ⟨"repo-baseline.json.lock"⟩)
  linked.put plainMemory "repo-baseline.json.lock.lock" (.file .empty 0)

/-- The run breaks the stale lock to which the path of the symbol baseline leads. Its reader gets neither
the bytes of before nor any document from then on. -/
theorem reader_loses_document :
    let host := plainHost tangledDisk
    let place := plainMemory ++ ["repo-baseline.json.lock"]
    plainEngine.baselinePlace host.disk symbolBaselineName = .ok place ∧
      host.disk.contents? (plainEngine.baselinePath symbolBaselineName).route = some "one".toUTF8 ∧
      (plainEngine.create true host).1 =
        .error (.locked "repo-baseline.json.lock.lock" defaultLockTimeout) ∧
      ∃ disk ∈ (plainEngine.createCalls true).seen host,
        disk.contents? (plainEngine.baselinePath symbolBaselineName).route = none := by
  decide +kernel

end SourceBaseline.Engine
