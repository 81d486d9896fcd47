import SourceBaseline.Proofs.Engine.Confinement

/-!
# The engine on two hosts

Writing baselines comes to the same on two hosts and leaves their disks related, as long as each
baseline is found at the same place on both when it is locked, what is done beside that place comes to
the same on related disks, and the engine learns the same from both hosts.
-/

set_option autoImplicit false

namespace SourceBaseline.Engine

variable {engine : Engine} {alike : Disk → Disk → Prop} {first second : Host} {name : String}

/-- The baseline is found at the same isolated place on both disks, and what is done beside it comes to
the same on related disks. -/
structure Corresponds (engine : Engine) (alike : Disk → Disk → Prop) (name : String)
    (first second : Disk) : Prop where
  same : engine.baselinePlace first name = engine.baselinePlace second name
  isolated : ∀ place, engine.baselinePlace first name = .ok place →
    (Target.located place).Isolated engine.boundary.root first
  parallel : ∀ place, engine.baselinePlace first name = .ok place →
    (Target.located place).Parallel alike

theorem Corresponds.confines {firstDisk secondDisk : Disk}
    (corresponds : engine.Corresponds alike name firstDisk secondDisk) :
    engine.Confines firstDisk name := by
  intro place found
  obtain ⟨directory, last, located, _, shelters, _, _⟩ := corresponds.isolated place found
  cases located
  rw [List.dropLast_concat]
  refine ⟨?_, shelters.free⟩
  intro same
  have shorter := shelters.within.length_le
  rw [← same, List.length_append, List.length_singleton] at shorter
  omega

theorem kin_lockedFor (corresponds : engine.Corresponds alike name first.disk second.disk)
    (kin : first.Kin alike second) :
    (engine.lockedFor name first).Kin alike (engine.lockedFor name second) := by
  unfold lockedFor
  rw [← corresponds.same]
  split
  next place found =>
    exact (Lock.matches_acquire (corresponds.isolated place found) (corresponds.parallel place found)
      kin).2
  next => exact kin

theorem matches_holding {α : Type} {body : Lock → Action α}
    (corresponds : engine.Corresponds alike name first.disk second.disk)
    (kin : first.Kin alike second)
    (stays : ∀ lock, lock.target.Sheltered engine.boundary.root (engine.lockedFor name first).disk →
      (body lock).StaysBelow engine.boundary.root (engine.lockedFor name first))
    (matched : ∀ lock, lock.target.Isolated engine.boundary.root (engine.lockedFor name first).disk →
      lock.target.Parallel alike →
      (body lock).Matches (Host.Kin alike) (engine.lockedFor name first)
        (engine.lockedFor name second)) :
    (engine.holding name body).Matches (Host.Kin alike) first second := by
  apply Action.matches_read_bind kin corresponds.same
  intro place found
  have foundToo := corresponds.same.symm.trans found
  have isolated := corresponds.isolated place found
  have parallel := corresponds.parallel place found
  -- What is known of the hosts under the lock is said of `lockedFor`.
  have locked : ∀ {host lock later}, engine.baselinePlace host.disk name = .ok place →
      Lock.acquire (.located place) engine.settings.lockTimeout host = (.ok lock, later) →
      engine.lockedFor name host = later := by
    intro host lock later placed acquired
    rw [lockedFor, placed]
    exact congrArg Prod.snd acquired
  have shown : ∀ {lock later}, Lock.acquire (.located place) engine.settings.lockTimeout first =
      (.ok lock, later) → lock.target.Isolated engine.boundary.root later.disk := by
    intro lock later acquired
    rw [Lock.target_of_acquire acquired]
    exact isolated.later ((Lock.stays_acquire isolated.sheltered).changesBelow acquired)
  apply Lock.matches_holding isolated parallel kin
  · intro lock later acquired
    have same := locked found acquired
    subst same
    exact stays lock (shown acquired).sheltered
  · intro lock later other acquired acquiredToo _
    have same := locked found acquired
    have sameToo := locked foundToo acquiredToo
    subst same sameToo
    exact matched lock (shown acquired) (Lock.target_of_acquire acquired ▸ parallel)

section Locked

variable {root : Location} {checksumLock symbolLock : Lock}
  (checksumIsolated : checksumLock.target.Isolated root first.disk)
  (checksumParallel : checksumLock.target.Parallel alike)
  (symbolIsolated : symbolLock.target.Isolated root first.disk)
  (symbolParallel : symbolLock.target.Parallel alike) (kin : first.Kin alike second)

include checksumIsolated checksumParallel symbolIsolated symbolParallel kin

theorem matches_replaceBoth (checksums : ChecksumBaseline) (symbols : SymbolBaseline) :
    (replaceBoth checksumLock symbolLock checksums symbols).Matches (Host.Kin alike) first second := by
  have stages := Document.stays_stage checksums checksumIsolated.sheltered
  refine (Document.matches_stage checksums checksumIsolated checksumParallel kin).bind ?_
  rintro ⟨stampedChecksums, checksumWrite⟩ one oneToo staged _ kinOne
  have checksumPending := Document.pending_of_stage checksumIsolated.sheltered staged
  have checksumBeside : checksumWrite.target.Parallel alike :=
    Document.target_of_stage staged ▸ checksumParallel
  have symbolThen := symbolIsolated.later (stages.changesBelow staged)
  have stagesBoth := Document.stays_stage_onError symbols symbolThen.sheltered checksumPending
  refine (Document.matches_stage_onError symbols symbolThen symbolParallel kinOne checksumPending
    checksumBeside).bind ?_
  rintro ⟨stampedSymbols, symbolWrite⟩ two twoToo stagedBoth _ kinTwo
  have checksumNow := checksumPending.later (stagesBoth.changesBelow stagedBoth)
  have stagedSymbols := Action.eq_ok_of_onError stagedBoth
  have symbolPending := Document.pending_of_stage symbolThen.sheltered stagedSymbols
  have symbolBeside : symbolWrite.target.Parallel alike :=
    Document.target_of_stage stagedSymbols ▸ symbolParallel
  have commits := StagedWrite.stays_commit_onError checksumNow symbolPending
  refine (StagedWrite.matches_commit_onError checksumNow checksumBeside symbolPending symbolBeside
    kinTwo).bind ?_
  intro _ three threeToo committed _ kinThree
  have symbolNow := symbolPending.later (commits.changesBelow committed)
  refine (StagedWrite.matches_commit symbolNow symbolBeside kinThree).bind ?_
  intro _ _ _ _ _ kinLast
  exact Action.matches_pure kinLast _

theorem matches_writeLocked {expectation : Expectation} {checksums : ChecksumBaseline}
    {extraction : Extraction} (expects : engine.expectBaselines expectation first.disk =
      engine.expectBaselines expectation second.disk) :
    (engine.writeLocked expectation checksums extraction checksumLock symbolLock).Matches
      (Host.Kin alike) first second := by
  apply Action.matches_read_bind kin expects
  intro _ _
  refine (matches_replaceBoth checksumIsolated checksumParallel symbolIsolated symbolParallel kin
    _ _).bind ?_
  intro _ _ _ _ _ kinLast
  exact Action.matches_pure kinLast _

end Locked

theorem matches_replaceBaselines {expectation : Expectation} (kin : first.Kin alike second)
    (stands : first.disk.find? engine.boundary.root ≠ none)
    (expects : engine.expectBaselines expectation first.disk =
      engine.expectBaselines expectation second.disk)
    (learns : engine.snapshots first = engine.snapshots second)
    (checksums : engine.Corresponds alike checksumBaselineName first.disk second.disk)
    (symbols : engine.Corresponds alike symbolBaselineName
      (engine.lockedFor checksumBaselineName first).disk
      (engine.lockedFor checksumBaselineName second).disk)
    (expectsLocked :
      engine.expectBaselines expectation
          (engine.lockedFor symbolBaselineName (engine.lockedFor checksumBaselineName first)).disk =
        engine.expectBaselines expectation
          (engine.lockedFor symbolBaselineName
            (engine.lockedFor checksumBaselineName second)).disk) :
    (engine.replaceBaselines expectation).Matches (Host.Kin alike) first second := by
  have standsThen := stands_lockedFor checksums.confines stands
  have bothLocked := changesBelow_lockedFor symbols.confines standsThen
  have kinFirst := kin_lockedFor checksums kin
  have kinBoth := kin_lockedFor symbols kinFirst
  apply Action.matches_read_bind kin expects
  intro _ _
  apply Action.matches_read_bind kin learns
  intro _ _
  apply matches_holding checksums kin
  · intro checksumLock checksumSheltered
    apply stays_holding symbols.confines standsThen
    intro symbolLock symbolSheltered
    exact stays_writeLocked (checksumSheltered.later bothLocked) symbolSheltered
  · intro checksumLock checksumIsolated checksumParallel
    apply matches_holding symbols kinFirst
    · intro symbolLock symbolSheltered
      exact stays_writeLocked (checksumIsolated.sheltered.later bothLocked) symbolSheltered
    · intro symbolLock symbolIsolated symbolParallel
      exact matches_writeLocked (checksumIsolated.later bothLocked) checksumParallel symbolIsolated
        symbolParallel kinBoth expectsLocked

end SourceBaseline.Engine
