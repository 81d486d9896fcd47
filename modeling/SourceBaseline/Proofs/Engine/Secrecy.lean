import SourceBaseline.Proofs.Engine.Stability
import SourceBaseline.Proofs.Walk.Secrecy

/-!
# The engine and the secrets of a project

The exclude rules keep files from the walk by their paths, so what an excluded file holds is withheld
from every report and every baseline, as long as nothing that the engine reads leads to such a file by
another way: no link that is kept, no read-me and no baseline.
-/

set_option autoImplicit false

namespace SourceBaseline.Engine

variable {engine : Engine} {first second host : Host} {disk : Disk} {name : String}
  {place : Location}

/-! ## Withheld files -/

/-- The place lies below the root and outside the state directory, and its path or that of a directory
above it is excluded. -/
def Withholds (engine : Engine) (place : Location) : Prop :=
  (∃ names, place = engine.boundary.root ++ names ∧ ¬ engine.walk.Keeps names) ∧
    ¬ engine.stateDirectory <+: place

instance (engine : Engine) : DecidablePred engine.Withholds := fun place =>
  decidable_of_iff
    ((∃ names ∈ Location.below? engine.boundary.root place, ¬ engine.walk.Keeps names) ∧
      ¬ engine.stateDirectory <+: place)
    (by simp [Withholds, Location.below?_eq_some_iff])

theorem not_withholds_of_keeps {names : List String} (keeps : engine.walk.Keeps names) :
    ¬ engine.Withholds (engine.boundary.root ++ names) := by
  rintro ⟨⟨others, same, excluded⟩, _⟩
  exact excluded (List.append_cancel_left same ▸ keeps)

theorem not_withholds_of_state (inside : engine.stateDirectory <+: place) :
    ¬ engine.Withholds place :=
  fun withholds => withholds.2 inside

/-- Nothing that the engine reads leads to a withheld file. -/
structure Discreet (engine : Engine) (disk : Disk) : Prop where
  links : ∀ names target, (names, .link target) ∈ engine.walk.kept disk →
    engine.boundary.Avoids disk engine.Withholds (Location.path (engine.boundary.root ++ names))
  readMes : ∀ name ∈ readMeNames, engine.boundary.Avoids disk engine.Withholds ⟨name⟩
  baselines : ∀ name ∈ [checksumBaselineName, symbolBaselineName],
    engine.boundary.Avoids disk engine.Withholds (engine.baselinePath name)

/-! ## Reading -/

theorem withSettings_of_resembles {hidden : Location → Prop} {firstDisk secondDisk : Disk}
    (resembles : Disk.Resembles hidden firstDisk secondDisk) {extractor : Extractor}
    {settings : Settings} {root : Path} :
    withSettings extractor settings firstDisk root =
      withSettings extractor settings secondDisk root := by
  unfold withSettings
  simp only [Boundary.open?_of_resembles resembles, Boundary.validate_of_resembles resembles]

section Reading

variable (kin : first.Kin (Disk.Resembles engine.Withholds) second)

include kin

theorem readsAlike_of_discreet (named : first.disk.Named) (discreet : engine.Discreet first.disk) :
    engine.ReadsAlike first second where
  git := kin.git
  lists _ := Walk.enumerate_of_resembles kin.disk fun _ => not_withholds_of_keeps
  holds _ _ listed _ member :=
    Walk.inspect_of_resembles kin.disk (fun _ => not_withholds_of_keeps) named discreet.links
      (Walk.listed_of_enumerate listed ▸ member)
  directories := documentation?_of_resembles kin.disk
  descriptions := description_congr fun name member =>
    (discreet.readMes name member).answersAlike kin.disk

theorem changesSince_of_kin {revision : String} :
    engine.changesSince revision first = engine.changesSince revision second := by
  unfold changesSince Git.changedFilesSince
  simp only [kin.git, Boundary.validate_of_resembles kin.disk]

theorem loadsAlike_of_discreet (discreet : engine.Discreet first.disk)
    (baseline : name ∈ [checksumBaselineName, symbolBaselineName]) :
    engine.LoadsAlike name first.disk second.disk :=
  (discreet.baselines name baseline).answersAlike kin.disk

end Reading

/-! ## Writing -/

theorem expectBaselines_of_resembles {expectation : Expectation} {firstDisk secondDisk : Disk}
    (resembles : Disk.Resembles engine.Withholds firstDisk secondDisk) :
    engine.expectBaselines expectation firstDisk = engine.expectBaselines expectation secondDisk := by
  have stored : ∀ name, engine.isStored name firstDisk = engine.isStored name secondDisk := by
    intro name
    unfold isStored baselinePlace
    rw [Boundary.validate_of_resembles resembles]
    simp only [resembles.isPresent]
  exact expectBaselines_congr (stored _) (stored _)

/-- The baseline is found, if at all, in the state directory and behind no link, and its lock is no
link. -/
structure Houses (engine : Engine) (disk : Disk) (name : String) : Prop where
  inside : ∀ place, engine.baselinePlace disk name = .ok place →
    engine.stateDirectory <+: place.dropLast
  proper : ∀ place, engine.baselinePlace disk name = .ok place → place ≠ engine.boundary.root
  free : ∀ place, engine.baselinePlace disk name = .ok place → disk.LinkFree place
  lockFree : ∀ place, engine.baselinePlace disk name = .ok place →
    disk.LinkFree (Target.located place).lock.route.names

theorem Houses.confines (houses : engine.Houses disk name) : engine.Confines disk name :=
  fun place found =>
    ⟨houses.proper place found, (houses.free place found).above (List.dropLast_prefix place)⟩

theorem Houses.avoids (houses : engine.Houses disk name) :
    engine.boundary.Avoids disk engine.Withholds (engine.baselinePath name) := by
  intro place found _ _ valid located _
  rw [Disk.eq_of_locate (Boundary.isName_of_validate valid) (houses.free place valid) located]
  exact not_withholds_of_state ((houses.inside place valid).trans (List.dropLast_prefix place))

theorem Houses.corresponds (houses : engine.Houses first.disk name)
    (stands : first.disk.find? engine.boundary.root ≠ none)
    (kin : first.Kin (Disk.Resembles engine.Withholds) second) :
    engine.Corresponds (Disk.Resembles engine.Withholds) name first.disk second.disk where
  same := Boundary.validate_of_resembles kin.disk
  isolated place found :=
    houses.confines.isolated stands found (houses.free place found) (houses.lockFree place found)
  parallel place found := by
    intro directory last located
    cases located
    have inside := houses.inside _ found
    rw [List.dropLast_concat] at inside
    apply Disk.parallel_resembles
    · exact fun other member => Boundary.isName_of_validate found other (List.mem_append_left _ member)
    · exact fun other => not_withholds_of_state (inside.trans (List.prefix_append _ _))

/-- Each baseline is found in the state directory, and behind no link, when its lock is taken. -/
structure Housed (engine : Engine) (host : Host) : Prop where
  stands : host.disk.find? engine.boundary.root ≠ none
  checksums : engine.Houses host.disk checksumBaselineName
  symbols : engine.Houses (engine.lockedFor checksumBaselineName host).disk symbolBaselineName

theorem matches_of_housed {expectation : Expectation}
    (kin : first.Kin (Disk.Resembles engine.Withholds) second) (named : first.disk.Named)
    (discreet : engine.Discreet first.disk) (housed : engine.Housed first) :
    (engine.replaceBaselines expectation).Matches (Host.Kin (Disk.Resembles engine.Withholds)) first
      second := by
  obtain ⟨stands, checksums, symbols⟩ := housed
  have standsThen := stands_lockedFor checksums.confines stands
  have checksumsCorrespond := checksums.corresponds stands kin
  have kinFirst := kin_lockedFor checksumsCorrespond kin
  have symbolsCorrespond := symbols.corresponds standsThen kinFirst
  have kinBoth := kin_lockedFor symbolsCorrespond kinFirst
  exact matches_replaceBaselines kin stands (expectBaselines_of_resembles kin.disk)
    (readsAlike_of_discreet kin named discreet).snapshots checksumsCorrespond symbolsCorrespond
    (expectBaselines_of_resembles kinBoth.disk)

/-! ## Baselines whose paths only descend -/

theorem houses_of_descends (namedState : ∀ other ∈ engine.stateDirectory, IsName other)
    (descends : engine.Descends disk name)
    (baseline : name ∈ [checksumBaselineName, symbolBaselineName]) : engine.Houses disk name := by
  have location : ∃ file, engine.boundary.descent? (engine.baselinePath name) =
      some (engine.memory ++ [file]) := by
    rcases List.mem_cons.1 baseline with rfl | last
    · exact ⟨_, descent?_checksums namedState⟩
    · cases List.mem_singleton.1 last
      exact ⟨_, descent?_symbols namedState⟩
  obtain ⟨file, known⟩ := location
  have isolates := descends.isolates
  refine ⟨?_, isolates.proper, isolates.grounded.free, isolates.lockFree⟩
  intro place found
  rw [descends.eq_of_placed known found, List.dropLast_concat]
  exact List.prefix_append _ _

theorem housed_of_descends (namedState : ∀ other ∈ engine.stateDirectory, IsName other)
    (stands : host.disk.find? engine.boundary.root ≠ none)
    (checksums : engine.Descends host.disk checksumBaselineName)
    (symbols : engine.Descends host.disk symbolBaselineName) : engine.Housed host where
  stands := stands
  checksums := houses_of_descends namedState checksums (by simp)
  symbols := houses_of_descends namedState
    (symbols.later (changesBelow_lockedFor checksums.isolates.confines stands)) (by simp)

/-- What withheld files hold has no influence on what the engine reports, nor on the baselines that it
writes. -/
theorem engine_ignores_withheld (kin : first.Kin (Disk.Resembles engine.Withholds) second)
    (named : first.disk.Named) (discreet : engine.Discreet first.disk) :
    (∀ extractor settings root,
        withSettings extractor settings first.disk root =
          withSettings extractor settings second.disk root) ∧
      engine.extractSymbols first = engine.extractSymbols second ∧
      engine.check first = engine.check second ∧
      engine.semanticDiff first = engine.semanticDiff second ∧
      (∀ revision, engine.changesSince revision first = engine.changesSince revision second) ∧
      (engine.Housed first → ∀ run, (run = engine.update ∨ ∃ reset, run = engine.create reset) →
        run.Matches (Host.Kin (Disk.Resembles engine.Withholds)) first second ∧
          ∀ place, engine.stateDirectory <+: place →
            (run first).2.disk.find? place = (run second).2.disk.find? place) := by
  have reads := readsAlike_of_discreet kin named discreet
  refine ⟨fun _ _ _ => withSettings_of_resembles kin.disk, reads.extractSymbols,
    reads.check (loadsAlike_of_discreet kin discreet (by simp)),
    reads.semanticDiff (loadsAlike_of_discreet kin discreet (by simp)),
    fun _ => changesSince_of_kin kin, ?_⟩
  intro housed run writes
  have matched : run.Matches (Host.Kin (Disk.Resembles engine.Withholds)) first second := by
    rcases writes with rfl | ⟨reset, rfl⟩
    · exact matches_of_housed kin named discreet housed
    · exact matches_of_housed kin named discreet housed
  exact ⟨matched, fun _ inside => matched.2.disk.find? (not_withholds_of_state inside)⟩

/-- A project with a note, a link to the note and a file of secrets. -/
def secretDisk (secret : String) : Disk :=
  (noteDisk.put ["project"] "alias" (.link ⟨"note"⟩)).put ["project"] ".env"
    (.file secret.toUTF8 0)

theorem engine_ignores_withheld_env :
    (plainHost (secretDisk "one")).Kin (Disk.Resembles plainEngine.Withholds)
        (plainHost (secretDisk "two")) ∧
      (secretDisk "one").Named ∧ plainEngine.Discreet (secretDisk "one") ∧
      plainEngine.Housed (plainHost (secretDisk "one")) ∧
      plainEngine.check (plainHost (secretDisk "one")) =
        plainEngine.check (plainHost (secretDisk "two")) ∧
      (plainEngine.create false (plainHost (secretDisk "one"))).1.toOption = some ⟨2, 0, []⟩ ∧
      (plainEngine.create false (plainHost (secretDisk "one"))).2.disk.find?
          (plainMemory ++ ["repo-baseline.json"]) =
        (plainEngine.create false (plainHost (secretDisk "two"))).2.disk.find?
          (plainMemory ++ ["repo-baseline.json"]) := by
  have kin : (plainHost (secretDisk "one")).Kin (Disk.Resembles plainEngine.Withholds)
      (plainHost (secretDisk "two")) :=
    ⟨Disk.resembles_put (by decide +kernel) (by decide +kernel) (by decide +kernel), rfl, rfl, rfl,
      rfl⟩
  have named : (secretDisk "one").Named := by decide +kernel
  have descends : ∀ name ∈ [checksumBaselineName, symbolBaselineName],
      plainEngine.Descends (secretDisk "one") name := by
    intro name member
    exact descends_plain (by decide +kernel) (by decide +kernel) (by simpa using member)
  have kept : ∀ found ∈ plainEngine.walk.kept (secretDisk "one"),
      plainEngine.boundary.Avoids (secretDisk "one") plainEngine.Withholds
        (Location.path (plainEngine.boundary.root ++ found.1)) := by
    decide +kernel
  have discreet : plainEngine.Discreet (secretDisk "one") := {
    links := fun names target member => kept (names, .link target) member
    readMes := by decide +kernel
    baselines := fun name member =>
      (houses_of_descends (by decide) (descends name member) member).avoids }
  have housed : plainEngine.Housed (plainHost (secretDisk "one")) :=
    housed_of_descends (by decide) (by decide +kernel) (descends _ (.head _))
      (descends _ (.tail _ (.head _)))
  obtain ⟨_, _, checks, _, _, writes⟩ := engine_ignores_withheld kin named discreet
  exact ⟨kin, named, discreet, housed, checks, by decide +kernel,
    (writes housed _ (.inr ⟨false, rfl⟩)).2 _ (by decide)⟩

/-- A project with a file of secrets, a link to it, and a baseline for which the secret is `one`. -/
def aliasDisk (secret : String) : Disk :=
  let state := Boundary.leavingDisk.put ["project"] ".driftline" .directory
  let memory := state.put ["project", ".driftline"] "memory" .directory
  let recorded := "\x7b\"fileCount\":1,\"files\":\x7b\"alias\":\"" ++ Sha256.hex "one".toUTF8 ++
    "\"\x7d,\"schemaVersion\":\"1.0\"\x7d"
  let known := memory.put plainMemory "repo-baseline.json" (.file recorded.toUTF8 0)
  (known.put ["project"] "alias" (.link ⟨".env"⟩)).put ["project"] ".env" (.file secret.toUTF8 0)

/-- What an excluded file holds is read through a link that is not excluded. -/
theorem check_tells_secret :
    (plainHost (aliasDisk "one")).Kin (Disk.Resembles plainEngine.Withholds)
        (plainHost (aliasDisk "two")) ∧
      plainEngine.check (plainHost (aliasDisk "one")) = .ok [] ∧
      plainEngine.check (plainHost (aliasDisk "two")) = .ok [⟨.modified, "alias"⟩] := by
  refine ⟨⟨Disk.resembles_put (by decide +kernel) (by decide +kernel) (by decide +kernel), rfl, rfl,
    rfl, rfl⟩, ?_⟩
  decide +kernel

end SourceBaseline.Engine
