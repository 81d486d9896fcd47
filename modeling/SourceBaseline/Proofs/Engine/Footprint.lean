import SourceBaseline.Proofs.Boundary.Resolution
import SourceBaseline.Proofs.Engine.Isolation
import SourceBaseline.Proofs.Engine.Replacement

/-!
# What a run leaves alone

Baselines are written in one directory. Whatever stands elsewhere, a run that writes them leaves
alone, whether it succeeds or fails, but for the directories on the way there that were missing.
-/

set_option autoImplicit false

namespace SourceBaseline

variable {location : Location} {host : Host}

namespace Engine

variable {engine : Engine} {first second : Location} {later : Host}

theorem leaves_replaceBoth {checksumLock symbolLock : Lock} {checksums : ChecksumBaseline}
    {symbols : SymbolBaseline} {outcome : Outcome (ChecksumBaseline × SymbolBaseline)}
    (guards : checksumLock.Guards first host.disk) (guardsToo : symbolLock.Guards second host.disk)
    (apart : Apart first second host.disk)
    (ran : replaceBoth checksumLock symbolLock checksums symbols host = (outcome, later))
    (spared : BothSpare first second host.disk location) (notFirst : location ≠ first)
    (notSecond : location ≠ second) : host.disk.Leaves location later.disk := by
  rcases stages_cases guards guardsToo apart ran with ⟨_, _, leaves⟩ |
    ⟨_, _, write, writeToo, _, _, ready, _, _, waits, waitsToo, _, leaves, ran⟩
  · exact leaves location spared
  have sparedThen := spared.later (leaves location spared)
  have commits : (Action.onError write.commit writeToo.discard).Relates (Disk.Leaves location)
      ready := by
    apply StagedWrite.leaves_commit_onError waits.pending waitsToo.pending
    · exact waits.pending.elsewhere (waits.target ▸ sparedThen.1)
    · exact waitsToo.pending.elsewhere (waitsToo.target ▸ sparedThen.2)
    · exact waits.target ▸ fun same => notFirst (Target.located.inj same).symm
  refine trans_of (Disk.Leaves location) (leaves location spared) (Action.Relates.of_ran ?_ ran)
  refine commits.bind fun _ between committed => ?_
  have leavesThen := commits.of_ran committed
  refine Action.Relates.bind ?_ fun _ _ _ => Action.relates_of_same rfl
  apply StagedWrite.leaves_commit (waitsToo.pending.later leavesThen.changes)
  · exact waitsToo.pending.elsewhere (waitsToo.target ▸ sparedThen.2)
  · exact waitsToo.target ▸ fun same => notSecond (Target.located.inj same).symm

theorem leaves_replaceBaselines {expectation : Expectation} {outcome : Outcome BaselineSummary}
    (untangled : engine.Untangled host)
    (ran : engine.replaceBaselines expectation host = (outcome, later))
    (spared : engine.Spares host location) (elsewhere : ¬ engine.Finds host location) :
    host.disk.Leaves location later.disk := by
  rcases replaceBaselines_held untangled ran with ⟨_, _, leaves⟩ |
    ⟨_, _, first, second, lock, lockToo, locked, finished, _, held, wrote, dropped⟩
  · exact leaves location spared
  have writes : locked.disk.Leaves location finished.disk := by
    rcases Action.read_bind_cases wrote with ⟨_, _, rfl⟩ | ⟨_, _, wrote⟩
    · exact refl_of (Disk.Leaves location) finished.disk
    have notFirst : location ≠ first := fun same => elsewhere (same ▸ .checksums held.placed)
    have notSecond : location ≠ second := fun same => elsewhere (same ▸ .symbolsLocked held.placedToo)
    have sparedThen := held.spares location spared
    rcases Action.bind_cases wrote with ⟨_, _, failed⟩ | ⟨_, _, replaced, finish⟩
    · exact leaves_replaceBoth held.guards held.guardsToo held.apart failed sparedThen notFirst notSecond
    · cases finish
      exact leaves_replaceBoth held.guards held.guardsToo held.apart replaced sparedThen notFirst
        notSecond
  have drops := dropped ▸ held.drops (held.changes wrote) spared
  exact trans_of (Disk.Leaves location) (held.leaves location spared)
    (trans_of (Disk.Leaves location) writes drops)

/-! ## The directory of the baselines -/

variable {disk : Disk} {name : String}

/-- The directory in which both baselines are kept. -/
def memory (engine : Engine) : Location :=
  engine.stateDirectory ++ ["memory"]

theorem descent?_baselinePath (parts : List String)
    (named : ∀ other ∈ engine.stateDirectory, IsName other)
    (relative : (Path.mk name).isAbsolute = false)
    (pieces : (Path.mk name).pieces.filterMap Path.componentOf? = parts.map .name) :
    engine.boundary.descent? (engine.baselinePath name) = some (engine.stateDirectory ++ parts) := by
  apply Boundary.descent?_of_steps
  have absolute : engine.boundary.absolute (engine.baselinePath name) = engine.baselinePath name :=
    Path.join_of_isAbsolute (Location.isAbsolute_join _ _)
  rw [Boundary.steps_start, absolute, Path.filterMap_walkNames, baselinePath,
    Path.filterMap_pieces_join named relative, pieces, List.map_append]

theorem descent?_checksums (named : ∀ other ∈ engine.stateDirectory, IsName other) :
    engine.boundary.descent? (engine.baselinePath checksumBaselineName) =
      some (engine.memory ++ ["repo-baseline.json"]) := by
  rw [descent?_baselinePath ["memory", "repo-baseline.json"] named (by decide) (by decide)]
  simp [memory]

theorem descent?_symbols (named : ∀ other ∈ engine.stateDirectory, IsName other) :
    engine.boundary.descent? (engine.baselinePath symbolBaselineName) =
      some (engine.memory ++ ["symbol-baseline.json"]) := by
  rw [descent?_baselinePath ["memory", "symbol-baseline.json"] named (by decide) (by decide)]
  simp [memory]

theorem Descends.eq_of_placed {location place : Location} (descends : engine.Descends disk name)
    (steps : engine.boundary.descent? (engine.baselinePath name) = some location)
    (placed : engine.baselinePlace disk name = .ok place) : place = location := by
  obtain ⟨_, known, _, _, free, _⟩ := descends
  cases known.symm.trans steps
  exact (Boundary.eq_of_descent? steps (Boundary.refusesLinks_of_linkFree free) placed).1

theorem sideBySide_of_descends (named : ∀ other ∈ engine.stateDirectory, IsName other)
    (checksums : engine.Descends host.disk checksumBaselineName)
    (symbols : engine.Descends host.disk symbolBaselineName) :
    engine.SideBySide host engine.memory := by
  have namedMemory : ∀ other ∈ engine.memory, IsName other := by
    intro other member
    rcases List.mem_append.1 member with before | last
    · exact named other before
    · exact List.mem_singleton.1 last ▸ by decide
  have free : host.disk.LinkFree engine.memory := by
    obtain ⟨_, steps, _, _, free, _⟩ := checksums
    cases (descent?_checksums named).symm.trans steps
    exact free.above (List.prefix_append _ _)
  have found : ∀ place, engine.baselinePlace host.disk checksumBaselineName = .ok place →
      place = engine.memory ++ ["repo-baseline.json"] :=
    fun _ => checksums.eq_of_placed (descent?_checksums named)
  have symbolsLocked : engine.Descends (engine.lockedFor checksumBaselineName host).disk
      symbolBaselineName := by
    rw [lockedFor]
    split
    next place placed =>
      have sheltered : (Target.located place).Sheltered [] host.disk :=
        ⟨engine.memory, _, congrArg Target.located (found place placed), by decide, namedMemory,
          List.nil_prefix, free, fun missing => by cases missing⟩
      exact symbols.later (Lock.stays_acquire sheltered)
    next => exact symbols
  exact {
    named := namedMemory
    free
    checksums := found
    symbols := fun _ => symbols.eq_of_placed (descent?_symbols named)
    symbolsLocked := fun _ => symbolsLocked.eq_of_placed (descent?_symbols named) }

/-- The location is the directory of the baselines or below it, or a directory on the way there that
is missing. -/
def Writes (engine : Engine) (disk : Disk) (location : Location) : Prop :=
  engine.memory <+: location ∨ location <+: engine.memory ∧ disk.find? location = none

/-- Nothing is written at the location or on the way to it. -/
def Clear (engine : Engine) (disk : Disk) (location : Location) : Prop :=
  ∀ top, top <+: location → ¬ engine.Writes disk top

instance (engine : Engine) (disk : Disk) (location : Location) :
    Decidable (engine.Clear disk location) :=
  decidable_of_iff
    (∀ top ∈ Location.ancestors location,
      ¬ (engine.memory <+: top ∨ top <+: engine.memory ∧ disk.find? top = none))
    ⟨fun all top within => all top (Location.mem_ancestors_iff.2 within),
      fun clear top member => clear top (Location.mem_ancestors_iff.1 member)⟩

theorem Clear.above {top : Location} (clear : engine.Clear disk location) (within : top <+: location) :
    engine.Clear disk top :=
  fun higher before => clear higher (before.trans within)

section Running

variable {expectation : Expectation} {outcome : Outcome BaselineSummary}
  (beside : engine.SideBySide host engine.memory)
  (ran : engine.replaceBaselines expectation host = (outcome, later))

include beside ran

theorem leaves_of_not_writes (outside : ¬ engine.Writes host.disk location) :
    host.disk.Leaves location later.disk := by
  have elsewhere : ∀ name, location ≠ engine.memory ++ [name] := by
    intro name same
    exact outside (.inl ⟨[name], same.symm⟩)
  have apart : ∀ name, ¬ Attends location (engine.memory ++ [name]) := by
    intro name attends
    obtain ⟨directory, last, other, same, sameToo, _⟩ := attends
    obtain ⟨rfl, _⟩ : engine.memory = directory ∧ name = last := by simpa using same
    exact elsewhere other sameToo
  apply leaves_replaceBaselines beside.untangled ran
  · exact beside.spares (fun name _ => apart name) fun missing within => outside (.inr ⟨within, missing⟩)
  · intro found
    rcases beside.eq_of_finds found with same | same
    · exact elsewhere _ same
    · exact elsewhere _ same

theorem agreesTo_of_clear (clear : engine.Clear host.disk location) :
    host.disk.AgreesTo location later.disk :=
  fun top within => (leaves_of_not_writes beside ran (clear top within)).same.symm

end Running

end Engine

end SourceBaseline
