import SourceBaseline.Proofs.Engine.Correspondence
import SourceBaseline.Proofs.Engine.Readings

/-!
# Isolation of the engine

On two hosts that differ in nothing but what stands outside the root, every operation comes to the
same, as long as the paths that it asks the boundary about are grounded: only entries around the
root are looked at for them, and where they lead there is no link on the way.
-/

set_option autoImplicit false

namespace SourceBaseline

variable {first second : Host}

namespace Engine

variable {engine : Engine} {disk : Disk} {name : String}

/-- The paths that the engine asks the boundary about when it reads. -/
def asked (engine : Engine) (disk : Disk) : List Path :=
  [engine.baselinePath checksumBaselineName, engine.baselinePath symbolBaselineName] ++
    (documentationNames ++ readMeNames).map Path.mk ++ engine.walk.asked disk

/-- Every path that the engine asks the boundary about when it reads is grounded. -/
def Grounded (engine : Engine) (disk : Disk) : Prop :=
  ∀ path ∈ engine.asked disk, engine.boundary.Grounded disk path

theorem readsAlike_of_grounded (alike : first.Alike engine.boundary.root second)
    (grounded : engine.Grounded first.disk) : engine.ReadsAlike first second := by
  have entries : ∀ path ∈ engine.walk.asked first.disk,
      engine.boundary.Grounded first.disk path :=
    fun path member => grounded path (List.mem_append_right _ member)
  have documents : ∀ name ∈ documentationNames ++ readMeNames,
      engine.boundary.AnswersAlike first.disk second.disk ⟨name⟩ := by
    intro name member
    refine (grounded ⟨name⟩ ?_).answersAlike alike.disk
    exact List.mem_append_left _ (List.mem_append_right _ (List.mem_map_of_mem member))
  exact {
    git := alike.git
    lists := fun _ => Walk.enumerate_congr alike.disk entries
    holds := fun _ _ => Walk.inspect_of_enumerate alike.disk entries
    directories := documentation?_congr fun name member =>
      documents name (List.mem_append_left _ member)
    descriptions := description_congr fun name member =>
      documents name (List.mem_append_right _ member) }

theorem baselinePlace_congr (alike : first.Alike engine.boundary.root second)
    (grounded : engine.boundary.Grounded first.disk (engine.baselinePath name)) :
    engine.baselinePlace first.disk name = engine.baselinePlace second.disk name :=
  Boundary.validate_congr alike.disk grounded.inside

theorem extractSymbols_congr (alike : first.Alike engine.boundary.root second)
    (grounded : engine.Grounded first.disk) :
    engine.extractSymbols first = engine.extractSymbols second :=
  (readsAlike_of_grounded alike grounded).extractSymbols

theorem check_congr (alike : first.Alike engine.boundary.root second)
    (grounded : engine.Grounded first.disk) : engine.check first = engine.check second := by
  have known : engine.boundary.Grounded first.disk (engine.baselinePath checksumBaselineName) :=
    grounded _ (by simp [asked])
  exact (readsAlike_of_grounded alike grounded).check (known.answersAlike alike.disk)

theorem semanticDiff_congr (alike : first.Alike engine.boundary.root second)
    (grounded : engine.Grounded first.disk) :
    engine.semanticDiff first = engine.semanticDiff second := by
  have known : engine.boundary.Grounded first.disk (engine.baselinePath symbolBaselineName) :=
    grounded _ (by simp [asked])
  exact (readsAlike_of_grounded alike grounded).semanticDiff (known.answersAlike alike.disk)

theorem expectBaselines_of_grounded {expectation : Expectation}
    (alike : first.Alike engine.boundary.root second)
    (checksums : engine.boundary.Grounded first.disk (engine.baselinePath checksumBaselineName))
    (symbols : engine.boundary.Grounded first.disk (engine.baselinePath symbolBaselineName)) :
    engine.expectBaselines expectation first.disk =
      engine.expectBaselines expectation second.disk := by
  have checksumsAlike : engine.LoadsAlike checksumBaselineName first.disk second.disk :=
    checksums.answersAlike alike.disk
  have symbolsAlike : engine.LoadsAlike symbolBaselineName first.disk second.disk :=
    symbols.answersAlike alike.disk
  exact expectBaselines_congr checksumsAlike.isStored symbolsAlike.isStored

/-! ## Writing -/

/-- A baseline is found behind no link and below the root, and its lock is no link. -/
structure Isolates (engine : Engine) (disk : Disk) (name : String) : Prop where
  grounded : engine.boundary.Grounded disk (engine.baselinePath name)
  proper : ∀ place, engine.baselinePlace disk name = .ok place → place ≠ engine.boundary.root
  lockFree : ∀ place, engine.baselinePlace disk name = .ok place →
    disk.LinkFree (Target.located place).lock.route.names

/-- Each baseline is isolated when its lock is taken, and both can be looked at without regard to
what lies outside when both locks are held. -/
structure Isolated (engine : Engine) (host : Host) : Prop where
  stands : host.disk.find? engine.boundary.root ≠ none
  checksums : engine.Isolates host.disk checksumBaselineName
  symbols : engine.Isolates (engine.lockedFor checksumBaselineName host).disk symbolBaselineName
  checksumsLocked : engine.boundary.Grounded
    (engine.lockedFor symbolBaselineName (engine.lockedFor checksumBaselineName host)).disk
    (engine.baselinePath checksumBaselineName)
  symbolsLocked : engine.boundary.Grounded
    (engine.lockedFor symbolBaselineName (engine.lockedFor checksumBaselineName host)).disk
    (engine.baselinePath symbolBaselineName)

theorem Isolates.confines (isolates : engine.Isolates disk name) : engine.Confines disk name := by
  intro place found
  refine ⟨isolates.proper place found, ?_⟩
  exact (isolates.grounded.free place found).above (List.dropLast_prefix place)

theorem Isolates.isolated {place : Location} (isolates : engine.Isolates disk name)
    (stands : disk.find? engine.boundary.root ≠ none)
    (found : engine.baselinePlace disk name = .ok place) :
    (Target.located place).Isolated engine.boundary.root disk :=
  isolates.confines.isolated stands found (isolates.grounded.free place found)
    (isolates.lockFree place found)

theorem Isolates.corresponds (isolates : engine.Isolates first.disk name)
    (stands : first.disk.find? engine.boundary.root ≠ none)
    (alike : first.Alike engine.boundary.root second) :
    engine.Corresponds (Disk.Alike engine.boundary.root) name first.disk second.disk where
  same := baselinePlace_congr alike isolates.grounded
  isolated _ found := isolates.isolated stands found
  parallel _ found := (isolates.isolated stands found).sheltered.parallel

theorem ignores_replaceBaselines {expectation : Expectation}
    (alike : first.Alike engine.boundary.root second) (grounded : engine.Grounded first.disk)
    (isolated : engine.Isolated first) :
    (engine.replaceBaselines expectation).Ignores engine.boundary.root first second := by
  obtain ⟨stands, checksums, symbols, checksumsLocked, symbolsLocked⟩ := isolated
  have standsThen := stands_lockedFor checksums.confines stands
  have checksumsCorrespond := checksums.corresponds stands alike
  have kinFirst := kin_lockedFor checksumsCorrespond (Host.alike_iff_kin.1 alike)
  have symbolsCorrespond := symbols.corresponds standsThen (Host.alike_iff_kin.2 kinFirst)
  have kinBoth := kin_lockedFor symbolsCorrespond kinFirst
  have symbolsGrounded : engine.boundary.Grounded first.disk
      (engine.baselinePath symbolBaselineName) := grounded _ (by simp [asked])
  apply Action.ignores_of_matches
  exact matches_replaceBaselines (Host.alike_iff_kin.1 alike) stands
    (expectBaselines_of_grounded alike checksums.grounded symbolsGrounded)
    (readsAlike_of_grounded alike grounded).snapshots checksumsCorrespond symbolsCorrespond
    (expectBaselines_of_grounded (Host.alike_iff_kin.2 kinBoth) checksumsLocked symbolsLocked)

/-! ## Paths that only descend -/

theorem grounded_of_descents (descents : ∀ path ∈ engine.asked disk, ∃ location,
      engine.boundary.descent? path = some location ∧ location.Overlaps engine.boundary.root ∧
        engine.boundary.RefusesLinks disk location) : engine.Grounded disk := by
  intro path member
  obtain ⟨location, descends, overlaps, refuses⟩ := descents path member
  exact Boundary.grounded_of_descent? descends overlaps refuses

/-- The path of a baseline descends to a place below the root, and no link stands on the way there
or to its lock. -/
def Descends (engine : Engine) (disk : Disk) (name : String) : Prop :=
  ∃ location,
    engine.boundary.descent? (engine.baselinePath name) = some location ∧
    engine.boundary.root <+: location ∧ location ≠ engine.boundary.root ∧
    disk.LinkFree location ∧ disk.LinkFree (Target.located location).lock.route.names

theorem Descends.later {after : Disk} {top : Location} (descends : engine.Descends disk name)
    (changes : Disk.ChangesBelow top disk after) : engine.Descends after name := by
  obtain ⟨location, steps, within, proper, free, lockFree⟩ := descends
  exact ⟨location, steps, within, proper, changes.linkFree free, changes.linkFree lockFree⟩

theorem Descends.isolates (descends : engine.Descends disk name) : engine.Isolates disk name := by
  obtain ⟨location, steps, within, proper, free, lockFree⟩ := descends
  have refuses : engine.boundary.RefusesLinks disk location :=
    Boundary.refusesLinks_of_linkFree free
  refine ⟨Boundary.grounded_of_descent? steps (.inr within) refuses, ?_, ?_⟩
  · intro place found
    rw [(Boundary.eq_of_descent? steps refuses found).1]
    exact proper
  · intro place found
    rw [(Boundary.eq_of_descent? steps refuses found).1]
    exact lockFree

theorem isolated_of_descends {host : Host} (stands : host.disk.find? engine.boundary.root ≠ none)
    (checksums : engine.Descends host.disk checksumBaselineName)
    (symbols : engine.Descends host.disk symbolBaselineName) : engine.Isolated host := by
  have firstLocked := changesBelow_lockedFor checksums.isolates.confines stands
  have symbolsThen := symbols.later firstLocked
  have standsThen := stands_lockedFor checksums.isolates.confines stands
  have bothLocked := changesBelow_lockedFor symbolsThen.isolates.confines standsThen
  have checksumsLast := (checksums.later firstLocked).later bothLocked
  exact ⟨stands, checksums.isolates, symbolsThen.isolates, checksumsLast.isolates.grounded,
    (symbolsThen.later bothLocked).isolates.grounded⟩

/-- What stands outside the root has no influence on what the engine reports, nor on what it writes
below the root. -/
theorem engine_ignores_outside (alike : first.Alike engine.boundary.root second)
    (grounded : engine.Grounded first.disk) :
    engine.extractSymbols first = engine.extractSymbols second ∧
      engine.check first = engine.check second ∧
      engine.semanticDiff first = engine.semanticDiff second ∧
      (engine.Isolated first →
        (∀ reset, (engine.create reset).Ignores engine.boundary.root first second) ∧
        engine.update.Ignores engine.boundary.root first second) := by
  refine ⟨extractSymbols_congr alike grounded, check_congr alike grounded,
    semanticDiff_congr alike grounded, ?_⟩
  intro isolated
  refine ⟨?_, ignores_replaceBaselines alike grounded isolated⟩
  intro reset
  exact ignores_replaceBaselines alike grounded isolated

/-- A project with a note in it and a link to a directory outside. -/
def noteDisk : Disk :=
  Boundary.leavingDisk.put ["project"] "note" (.file "kept".toUTF8 0)

/-- Where `plainEngine` has no state directory yet, the paths of its baselines only descend. -/
theorem descends_plain {disk : Disk} {file : String} (real : disk.find? ["project"] = some .directory)
    (missing : disk.find? plainEngine.stateDirectory = none)
    (either : file = checksumBaselineName ∨ file = symbolBaselineName) :
    plainEngine.Descends disk file := by
  have above : disk.LinkFree ["project"] := Disk.linkFree_nil.concat fun _ => by simp [real]
  have state : disk.LinkFree plainEngine.stateDirectory := above.concat fun _ => by
    exact missing ▸ nofun
  have free : ∀ names, disk.LinkFree (plainEngine.stateDirectory ++ names) := by
    intro names top target within link
    rcases List.prefix_or_prefix_of_prefix within (List.prefix_append _ names) with higher | ⟨rest, rfl⟩
    · exact state top target higher link
    · by_cases empty : rest = []
      · subst empty
        rw [List.append_nil, missing] at link
        cases link
      · rw [Disk.find?_below_leaf (missing ▸ nofun) empty] at link
        cases link
  rcases either with rfl | rfl
  · exact ⟨_, by decide, by decide, by decide, free ["memory", "repo-baseline.json"],
      free ["memory", "repo-baseline.json.lock"]⟩
  · exact ⟨_, by decide, by decide, by decide, free ["memory", "symbol-baseline.json"],
      free ["memory", "symbol-baseline.json.lock"]⟩

theorem engine_ignores_outside_note :
    (plainHost noteDisk).Alike plainEngine.boundary.root
        (plainHost (noteDisk.put ["outside"] "secret" (.file .empty 0))) ∧
      plainEngine.Grounded (plainHost noteDisk).disk ∧ plainEngine.Isolated (plainHost noteDisk) ∧
      plainEngine.check (plainHost noteDisk) =
        plainEngine.check (plainHost (noteDisk.put ["outside"] "secret" (.file .empty 0))) ∧
      (plainEngine.create false).Ignores plainEngine.boundary.root (plainHost noteDisk)
        (plainHost (noteDisk.put ["outside"] "secret" (.file .empty 0))) := by
  have disks : noteDisk.Alike plainEngine.boundary.root
      (noteDisk.put ["outside"] "secret" (.file .empty 0)) :=
    Disk.alike_put (by decide +kernel) (by decide +kernel) (by decide)
  have alike : (plainHost noteDisk).Alike plainEngine.boundary.root
      (plainHost (noteDisk.put ["outside"] "secret" (.file .empty 0))) :=
    ⟨disks, rfl, rfl, rfl, rfl⟩
  have grounded : plainEngine.Grounded (plainHost noteDisk).disk := by
    apply grounded_of_descents
    intro path member
    have all : ∀ path ∈ plainEngine.asked (plainHost noteDisk).disk,
        (plainEngine.boundary.descent? path).any (fun location =>
          location.Overlaps plainEngine.boundary.root ∧
            plainEngine.boundary.RefusesLinks noteDisk location) = true := by
      decide +kernel
    obtain ⟨location, descends, held⟩ := (Option.any_eq_true _ _).1 (all path member)
    exact ⟨location, descends, of_decide_eq_true held⟩
  have checksums : plainEngine.Descends noteDisk checksumBaselineName :=
    descends_plain (by decide) (by decide) (.inl rfl)
  have symbols : plainEngine.Descends noteDisk symbolBaselineName :=
    descends_plain (by decide) (by decide) (.inr rfl)
  have stands : (plainHost noteDisk).disk.find? plainEngine.boundary.root ≠ none := by
    decide
  have isolated : plainEngine.Isolated (plainHost noteDisk) :=
    isolated_of_descends stands checksums symbols
  obtain ⟨_, checks, _, writes⟩ := engine_ignores_outside alike grounded
  exact ⟨alike, grounded, isolated, checks, (writes isolated).1 false⟩

/-- A project with a link that comes to a link out of the project after a missing part. -/
def leakDisk : Disk :=
  Boundary.leavingDisk.put ["project"] "leak.py" (.link ⟨"nope/../link/secret"⟩)

/-- The engine with every language. -/
def polyglotEngine : Engine := { plainEngine with extractor := ⟨.standard, fun _ _ => default⟩ }

theorem extraction_reads_outside :
    (plainHost leakDisk).Alike polyglotEngine.boundary.root
        (plainHost (leakDisk.put ["outside"] "secret" (.file ⟨#[255]⟩ 0))) ∧
      polyglotEngine.extractSymbols (plainHost leakDisk) = .ok ⟨.empty, []⟩ ∧
      polyglotEngine.extractSymbols
          (plainHost (leakDisk.put ["outside"] "secret" (.file ⟨#[255]⟩ 0))) =
        .ok ⟨.empty, [("leak.py", .notText)]⟩ := by
  have disks : leakDisk.Alike polyglotEngine.boundary.root
      (leakDisk.put ["outside"] "secret" (.file ⟨#[255]⟩ 0)) :=
    Disk.alike_put (by decide +kernel) (by decide +kernel) (by decide)
  refine ⟨⟨disks, rfl, rfl, rfl, rfl⟩, ?_, ?_⟩
  · decide +kernel
  · decide +kernel

end Engine

end SourceBaseline
