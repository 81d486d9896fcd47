import SourceBaseline.Engine
import SourceBaseline.Proofs.Boundary.Containment
import SourceBaseline.Proofs.Lock
import SourceBaseline.Proofs.Staging

/-!
# Confinement of the engine

Writing baselines changes nothing outside the root, whether it succeeds or fails, as long as each
baseline is found below the root in a directory behind no link at the moment it is locked.
-/

set_option autoImplicit false

namespace SourceBaseline.Engine

variable {engine : Engine} {host : Host} {disk : Disk} {name : String}

/-- The place of a baseline, if there is one, is not the root itself, and no link stands on the way
to its directory. -/
def Confines (engine : Engine) (disk : Disk) (name : String) : Prop :=
  ∀ place, engine.baselinePlace disk name = .ok place →
    place ≠ engine.boundary.root ∧ disk.LinkFree place.dropLast

/-- The host after the lock of a baseline was asked for. -/
def lockedFor (engine : Engine) (name : String) (host : Host) : Host :=
  match engine.baselinePlace host.disk name with
  | .ok place => (Lock.acquire (.located place) engine.settings.lockTimeout host).2
  | .error _ => host

/-- A baseline's path that comes to no link after a missing part leads behind no link. -/
theorem confines_of_not_returnsToLink
    (proper : ∀ place, engine.baselinePlace disk name = .ok place → place ≠ engine.boundary.root)
    (stays : ¬ engine.boundary.ReturnsToLink disk (engine.baselinePath name)) :
    engine.Confines disk name := by
  intro place found
  have free := (Boundary.linkFree_iff_of_validate found).2 stays
  exact ⟨proper place found, free.above (List.dropLast_prefix place)⟩

theorem Confines.sheltered {place : Location} (confines : engine.Confines disk name)
    (stands : disk.find? engine.boundary.root ≠ none)
    (found : engine.baselinePlace disk name = .ok place) :
    (Target.located place).Sheltered engine.boundary.root disk := by
  obtain ⟨proper, free⟩ := confines place found
  have named := Boundary.isName_of_validate found
  have within := List.isPrefixOf_iff_prefix.1 (Boundary.reaches_of_validate found).1
  have above := Location.prefix_dropLast within (Ne.symm proper)
  rcases List.eq_nil_or_concat place with top | ⟨directory, last, split⟩
  · subst top
    exact absurd (List.prefix_nil.1 within).symm proper
  · rw [List.concat_eq_append] at split
    subst split
    rw [List.dropLast_concat] at free above
    refine ⟨directory, last, rfl, named last (by simp), ?_⟩
    exact ⟨fun other member => named other (by simp [member]), above, free, stands⟩

theorem Confines.isolated {place : Location} (confines : engine.Confines disk name)
    (stands : disk.find? engine.boundary.root ≠ none)
    (found : engine.baselinePlace disk name = .ok place) (free : disk.LinkFree place)
    (lockFree : disk.LinkFree (Target.located place).lock.route.names) :
    (Target.located place).Isolated engine.boundary.root disk := by
  obtain ⟨directory, last, located, isName, shelters⟩ := confines.sheltered stands found
  cases located
  rw [Target.lock_located] at lockFree
  exact ⟨directory, last, rfl, isName, shelters, free, lockFree⟩

theorem changesBelow_lockedFor (confines : engine.Confines host.disk name)
    (stands : host.disk.find? engine.boundary.root ≠ none) :
    Disk.ChangesBelow engine.boundary.root host.disk (engine.lockedFor name host).disk := by
  rw [lockedFor]
  split
  next found => exact Lock.stays_acquire (confines.sheltered stands found)
  next => exact .refl _ _

theorem stands_lockedFor (confines : engine.Confines host.disk name)
    (stands : host.disk.find? engine.boundary.root ≠ none) :
    (engine.lockedFor name host).disk.find? engine.boundary.root ≠ none := by
  rw [(changesBelow_lockedFor confines stands).unchanged _ fun _ => rfl]
  exact stands

theorem stays_holding {α : Type} {body : Lock → Action α} (confines : engine.Confines host.disk name)
    (stands : host.disk.find? engine.boundary.root ≠ none)
    (stays : ∀ lock, lock.target.Sheltered engine.boundary.root (engine.lockedFor name host).disk →
      (body lock).StaysBelow engine.boundary.root (engine.lockedFor name host)) :
    (engine.holding name body).StaysBelow engine.boundary.root host := by
  apply Action.stays_read_bind
  intro place placed
  have sheltered := confines.sheltered stands placed
  apply Lock.stays_holding sheltered
  intro lock later acquired
  have locked : engine.lockedFor name host = later := by
    rw [lockedFor, placed]
    exact congrArg Prod.snd acquired
  have shelteredThen := sheltered.later ((Lock.stays_acquire sheltered).changesBelow acquired)
  rw [← Lock.target_of_acquire acquired, ← locked] at shelteredThen
  exact locked ▸ stays lock shelteredThen

theorem stays_replaceBoth {root : Location} {checksumLock symbolLock : Lock}
    {checksums : ChecksumBaseline} {symbols : SymbolBaseline}
    (checksumSheltered : checksumLock.target.Sheltered root host.disk)
    (symbolSheltered : symbolLock.target.Sheltered root host.disk) :
    (replaceBoth checksumLock symbolLock checksums symbols).StaysBelow root host := by
  have stages := Document.stays_stage checksums checksumSheltered
  refine stages.bind ?_
  rintro ⟨stampedChecksums, checksumWrite⟩ one staged
  have checksumPending := Document.pending_of_stage checksumSheltered staged
  have symbolThen := symbolSheltered.later (stages.changesBelow staged)
  have stagesBoth := Document.stays_stage_onError symbols symbolThen checksumPending
  refine stagesBoth.bind ?_
  rintro ⟨stampedSymbols, symbolWrite⟩ two stagedBoth
  have checksumNow := checksumPending.later (stagesBoth.changesBelow stagedBoth)
  have symbolPending := Document.pending_of_stage symbolThen (Action.eq_ok_of_onError stagedBoth)
  have commits := StagedWrite.stays_commit_onError checksumNow symbolPending
  refine commits.bind ?_
  intro _ three committed
  have symbolNow := symbolPending.later (commits.changesBelow committed)
  exact (StagedWrite.stays_commit symbolNow).bind fun _ _ _ => Action.stays_pure _

theorem stays_writeLocked {root : Location} {expectation : Expectation}
    {checksums : ChecksumBaseline} {extraction : Extraction} {checksumLock symbolLock : Lock}
    (checksumSheltered : checksumLock.target.Sheltered root host.disk)
    (symbolSheltered : symbolLock.target.Sheltered root host.disk) :
    (engine.writeLocked expectation checksums extraction checksumLock symbolLock).StaysBelow
      root host := by
  apply Action.stays_read_bind
  intro _ _
  exact (stays_replaceBoth checksumSheltered symbolSheltered).bind fun _ _ _ => Action.stays_pure _

theorem stays_replaceBaselines {expectation : Expectation}
    (stands : host.disk.find? engine.boundary.root ≠ none)
    (checksums : engine.Confines host.disk checksumBaselineName)
    (symbols : engine.Confines (engine.lockedFor checksumBaselineName host).disk
      symbolBaselineName) :
    (engine.replaceBaselines expectation).StaysBelow engine.boundary.root host := by
  have standsThen := stands_lockedFor checksums stands
  have bothLocked := changesBelow_lockedFor symbols standsThen
  apply Action.stays_read_bind
  intro _ _
  apply Action.stays_read_bind
  intro _ _
  apply stays_holding checksums stands
  intro checksumLock checksumSheltered
  apply stays_holding symbols standsThen
  intro symbolLock symbolSheltered
  exact stays_writeLocked (checksumSheltered.later bothLocked) symbolSheltered

/-- No file, directory or link outside the root is created, replaced or removed when baselines are
written: not while the locks are taken, nor when all is done or given up. -/
theorem create_update_confined (stands : host.disk.find? engine.boundary.root ≠ none)
    (checksums : engine.Confines host.disk checksumBaselineName)
    (symbols : engine.Confines (engine.lockedFor checksumBaselineName host).disk
      symbolBaselineName) :
    ∀ location, location.isWithin engine.boundary.root = false →
      (engine.lockedFor checksumBaselineName host).disk.find? location =
          host.disk.find? location ∧
        (engine.lockedFor symbolBaselineName
            (engine.lockedFor checksumBaselineName host)).disk.find? location =
          host.disk.find? location ∧
        (∀ reset, (engine.create reset host).2.disk.find? location = host.disk.find? location) ∧
        (engine.update host).2.disk.find? location = host.disk.find? location := by
  have firstLocked := changesBelow_lockedFor checksums stands
  have bothLocked := changesBelow_lockedFor symbols (stands_lockedFor checksums stands)
  intro location outside
  refine ⟨firstLocked.outside outside, (firstLocked.trans bothLocked).outside outside, ?_, ?_⟩
  · intro reset
    exact (stays_replaceBaselines stands checksums symbols).outside outside
  · exact (stays_replaceBaselines stands checksums symbols).outside outside

/-- An engine without languages for a project at `/project`. -/
def plainEngine : Engine where
  boundary := Boundary.projectBoundary
  extractor := ⟨.empty, fun _ _ => default⟩
  exclude := .withUserRules []
  settings := .standard
  stateDirectory := ["project", defaultStateDirectory]

/-- A host with a disk and no repository. -/
def plainHost (disk : Disk) : Host := ⟨disk, .outsideRepository, "now", standardHolder, 0⟩

theorem create_update_confined_fresh :
    (plainHost Boundary.leavingDisk).disk.find? plainEngine.boundary.root ≠ none ∧
      plainEngine.Confines (plainHost Boundary.leavingDisk).disk checksumBaselineName ∧
      (plainEngine.create false (plainHost Boundary.leavingDisk)).1.isOk = true ∧
      ∀ location, location.isWithin plainEngine.boundary.root = false →
        (plainEngine.create false (plainHost Boundary.leavingDisk)).2.disk.find? location =
          Boundary.leavingDisk.find? location := by
  have stands : (plainHost Boundary.leavingDisk).disk.find? plainEngine.boundary.root ≠ none := by
    decide +kernel
  have checksumPlace : plainEngine.baselinePlace (plainHost Boundary.leavingDisk).disk
      checksumBaselineName = .ok ["project", ".driftline", "memory", "repo-baseline.json"] := by
    decide +kernel
  have symbolPlace : plainEngine.baselinePlace
      (plainEngine.lockedFor checksumBaselineName (plainHost Boundary.leavingDisk)).disk
      symbolBaselineName = .ok ["project", ".driftline", "memory", "symbol-baseline.json"] := by
    decide +kernel
  have checksums : plainEngine.Confines (plainHost Boundary.leavingDisk).disk
      checksumBaselineName := by
    intro place found
    rw [checksumPlace] at found
    cases found
    refine ⟨by decide, by decide +kernel⟩
  have symbols : plainEngine.Confines
      (plainEngine.lockedFor checksumBaselineName (plainHost Boundary.leavingDisk)).disk
      symbolBaselineName := by
    intro place found
    rw [symbolPlace] at found
    cases found
    refine ⟨by decide, by decide +kernel⟩
  refine ⟨stands, checksums, by decide +kernel, ?_⟩
  intro location outside
  exact (create_update_confined stands checksums symbols location outside).2.2.1 false

/-- The project of `Boundary.leavingDisk` with a state directory that comes to the link after a
missing part. -/
def strayDisk : Disk :=
  (Boundary.leavingDisk.put ["project"] ".driftline" .directory).put ["project", ".driftline"]
    "memory" (.link ⟨"nope/../../link"⟩)

theorem create_writes_outside :
    Location.isWithin ["outside", "repo-baseline.json"] plainEngine.boundary.root = false ∧
      strayDisk.find? ["outside", "repo-baseline.json"] = none ∧
      (plainEngine.create false (plainHost strayDisk)).2.disk.find?
        ["outside", "repo-baseline.json"] ≠ none := by
  refine ⟨?_, ?_, ?_⟩
  · decide
  · decide +kernel
  · decide +kernel

end SourceBaseline.Engine
