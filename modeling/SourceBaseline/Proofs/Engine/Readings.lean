import SourceBaseline.Engine
import SourceBaseline.Proofs.Walk

/-!
# What the engine reads

A report is made of what the walk lists, what the listed files hold, what the root says of itself, the
answers of git, and the baseline that was loaded. On two hosts on which all of that is the same the
engine reports the same.
-/

set_option autoImplicit false

namespace SourceBaseline

theorem snapshot_congr {walk : Walk} {first second : Disk} {git : Git} {deadline : Deadline}
    (lists : walk.enumerate first deadline = walk.enumerate second deadline)
    (holds : ∀ files, walk.enumerate first deadline = .ok files →
      ∀ file ∈ files, first.inspect file.absolute.route = second.inspect file.absolute.route)
    (directories : documentation? first walk.boundary = documentation? second walk.boundary)
    (descriptions : description first walk.boundary = description second walk.boundary) :
    snapshot walk first git deadline = snapshot walk second git deadline := by
  unfold snapshot
  rw [← lists]
  cases listed : walk.enumerate first deadline with
  | error error => rfl
  | ok files =>
      have hashes := hashFiles_congr (holds files listed)
      simp only [bind, Except.bind, hashes, directories, descriptions]

namespace Engine

variable {engine : Engine} {first second : Host} {name : String}

/-- The tree reads the same on both hosts, and git answers the same. -/
structure ReadsAlike (engine : Engine) (first second : Host) : Prop where
  git : first.git = second.git
  lists : ∀ deadline,
    engine.walk.enumerate first.disk deadline = engine.walk.enumerate second.disk deadline
  holds : ∀ deadline files, engine.walk.enumerate first.disk deadline = .ok files →
    ∀ file ∈ files,
      first.disk.inspect file.absolute.route = second.disk.inspect file.absolute.route
  directories : documentation? first.disk engine.boundary = documentation? second.disk engine.boundary
  descriptions : description first.disk engine.boundary = description second.disk engine.boundary

/-- The baseline is found at the same place on both disks, with the same in it. -/
def LoadsAlike (engine : Engine) (name : String) (first second : Disk) : Prop :=
  engine.boundary.AnswersAlike first second (engine.baselinePath name)

theorem LoadsAlike.baselinePlace {firstDisk secondDisk : Disk}
    (loads : engine.LoadsAlike name firstDisk secondDisk) :
    engine.baselinePlace firstDisk name = engine.baselinePlace secondDisk name :=
  loads.place

theorem LoadsAlike.loadText? {firstDisk secondDisk : Disk} {place : Location}
    (loads : engine.LoadsAlike name firstDisk secondDisk)
    (found : engine.baselinePlace firstDisk name = .ok place) :
    loadText? firstDisk (Location.route place) = loadText? secondDisk (Location.route place) := by
  unfold SourceBaseline.loadText? Disk.readText Disk.read
  rw [loads.found place found]

theorem LoadsAlike.isStored {firstDisk secondDisk : Disk}
    (loads : engine.LoadsAlike name firstDisk secondDisk) :
    engine.isStored name firstDisk = engine.isStored name secondDisk := by
  unfold Engine.isStored
  rw [← loads.baselinePlace]
  cases found : engine.baselinePlace firstDisk name with
  | error error => rfl
  | ok place =>
      unfold Disk.isPresent
      simp only [bind, Except.bind, loads.found place found]

theorem expectBaselines_congr {expectation : Expectation} {firstDisk secondDisk : Disk}
    (checksums : engine.isStored checksumBaselineName firstDisk =
      engine.isStored checksumBaselineName secondDisk)
    (symbols : engine.isStored symbolBaselineName firstDisk =
      engine.isStored symbolBaselineName secondDisk) :
    engine.expectBaselines expectation firstDisk = engine.expectBaselines expectation secondDisk := by
  unfold expectBaselines
  rw [checksums, symbols]

namespace ReadsAlike

variable (reads : engine.ReadsAlike first second)

include reads

theorem extraction (deadline : Deadline) :
    engine.extraction first.disk deadline = engine.extraction second.disk deadline := by
  unfold Engine.extraction
  rw [← reads.lists]
  cases listed : engine.walk.enumerate first.disk deadline with
  | error error => rfl
  | ok files => exact Registry.extract_congr (reads.holds deadline files listed)

theorem snapshot (deadline : Deadline) :
    snapshot engine.walk first.disk first.git deadline =
      snapshot engine.walk second.disk second.git deadline := by
  rw [← reads.git]
  exact snapshot_congr (reads.lists deadline) (reads.holds deadline) reads.directories
    reads.descriptions

theorem snapshots : engine.snapshots first = engine.snapshots second := by
  unfold Engine.snapshots
  simp only [reads.snapshot, reads.extraction]

theorem extractSymbols : engine.extractSymbols first = engine.extractSymbols second := by
  unfold Engine.extractSymbols
  simp only [reads.extraction]

theorem check (loads : engine.LoadsAlike checksumBaselineName first.disk second.disk) :
    engine.check first = engine.check second := by
  unfold Engine.check
  rw [← loads.baselinePlace]
  cases found : engine.baselinePlace first.disk checksumBaselineName with
  | error error => rfl
  | ok place =>
      simp only [bind, Except.bind, ChecksumBaseline.load, loads.loadText? found, reads.snapshot]

theorem semanticDiff (loads : engine.LoadsAlike symbolBaselineName first.disk second.disk) :
    engine.semanticDiff first = engine.semanticDiff second := by
  unfold Engine.semanticDiff
  rw [← loads.baselinePlace]
  cases found : engine.baselinePlace first.disk symbolBaselineName with
  | error error => rfl
  | ok place =>
      simp only [bind, Except.bind, SymbolBaseline.load, loads.loadText? found, reads.extraction]

end ReadsAlike

end Engine

end SourceBaseline
