import SourceBaseline.Baseline.Store
import SourceBaseline.Comparison
import SourceBaseline.Extraction
import SourceBaseline.Settings
import SourceBaseline.Snapshot

/-!
# The engine

An engine works on one project. `create` and `update` replace both baselines under both locks:
nothing is written before both snapshots are complete, and no document takes its place before both
are staged. All other operations only read.
-/

set_option autoImplicit false

namespace SourceBaseline

def checksumBaselineName : String := "memory/repo-baseline.json"

def symbolBaselineName : String := "memory/symbol-baseline.json"

/-- What baselines have to be there when new ones are written. -/
inductive Expectation where
  | absent
  | anything
  | present
  deriving DecidableEq, Inhabited

/-- What was written: the number of files and symbols, and the files without symbols that should
have some. -/
structure BaselineSummary where
  files : Nat
  symbols : Nat
  skipped : List (String × SkipReason)
  deriving DecidableEq

/-- A project with its settings and languages. The state directory lies inside the root. -/
structure Engine where
  boundary : Boundary
  extractor : Extractor
  exclude : Exclude
  settings : Settings
  stateDirectory : Location

namespace Engine

/-- The rules that keep a state directory out of the tree, where the built-in ones do not. -/
def stateRules (boundary : Boundary) (stateDirectory : Location) : List String :=
  match Location.below? boundary.root stateDirectory with
  | none => []
  | some names =>
      let relative := Walk.relativePath names
      if relative = defaultStateDirectory then [] else [relative ++ "/**"]

def withSettings (extractor : Extractor) (settings : Settings) (disk : Disk) (root : Path) :
    Outcome Engine := do
  let boundary ← Boundary.open? disk root settings.linkBudget
  let stateDirectory ← boundary.validate disk settings.stateDirectory
  let exclude := Exclude.withUserRules (settings.exclude ++ stateRules boundary stateDirectory)
  pure { boundary, extractor, exclude, settings, stateDirectory }

/-- The engine for the project at a root, with the settings in its settings file and every
language. -/
def open? (grammar : Grammar) (disk : Disk) (root : Path) : Outcome Engine := do
  withSettings ⟨.standard, grammar⟩ (← Settings.load disk root) disk root

variable (engine : Engine)

def baselinePath (name : String) : Path :=
  (Location.path engine.stateDirectory).join ⟨name⟩

/-- The place of a baseline, which must still lie inside the root. -/
def baselinePlace (disk : Disk) (name : String) : Outcome Location :=
  engine.boundary.validate disk (engine.baselinePath name)

def walk : Walk :=
  ⟨engine.boundary, engine.exclude, engine.settings.maxFiles⟩

def extraction (disk : Disk) (deadline : Deadline) : Outcome Extraction := do
  engine.extractor.extract disk (← engine.walk.enumerate disk deadline) deadline

def check (host : Host) : Outcome (List FileChange) := do
  let place ← engine.baselinePlace host.disk checksumBaselineName
  match ← ChecksumBaseline.load host.disk (Location.route place) with
  | none => .error (.baselineNotFound checksumBaselineName)
  | some baseline =>
      let old := (baseline.retainTracked engine.exclude).files
      Deadline.run "check" engine.settings.timeout fun deadline => do
        let (current, deadline) ← snapshot engine.walk host.disk host.git deadline
        pure (compareChecksums old current.files, deadline)

def changesSince (revision : String) (host : Host) : Outcome (List FileChange) :=
  Deadline.run "changes_since" engine.settings.timeout
    (host.git.changedFilesSince host.disk engine.boundary engine.exclude revision)

def extractSymbols (host : Host) : Outcome Extraction :=
  Deadline.run "extract_symbols" engine.settings.timeout fun deadline => do
    pure (← engine.extraction host.disk deadline, deadline)

def semanticDiff (host : Host) : Outcome (List SemanticChange) := do
  let place ← engine.baselinePlace host.disk symbolBaselineName
  match ← SymbolBaseline.load host.disk (Location.route place) with
  | none => .error (.baselineNotFound symbolBaselineName)
  | some baseline =>
      let old := baseline.symbols.filter fun file _ => !engine.exclude.isExcluded file
      Deadline.run "semantic_diff" engine.settings.timeout fun deadline => do
        let current ← engine.extraction host.disk deadline
        pure (compareSymbols old current.symbols engine.settings.visibilityPolicy, deadline)

def isStored (name : String) (disk : Disk) : Outcome Bool := do
  pure (disk.isPresent (Location.route (← engine.baselinePlace disk name)))

def expectBaselines (expectation : Expectation) (disk : Disk) : Outcome Unit := do
  let checksums ← engine.isStored checksumBaselineName disk
  let symbols ← engine.isStored symbolBaselineName disk
  match expectation with
  | .absent =>
      if checksums then .error (.baselineExists checksumBaselineName)
      else if symbols then .error (.baselineExists symbolBaselineName)
      else pure ()
  | .anything => pure ()
  | .present =>
      if checksums || symbols then pure () else .error (.baselineNotFound checksumBaselineName)

def snapshots (host : Host) : Outcome (ChecksumBaseline × Extraction) :=
  Deadline.run "snapshot" engine.settings.timeout fun deadline => do
    let (checksums, deadline) ← snapshot engine.walk host.disk host.git deadline
    pure ((checksums, ← engine.extraction host.disk deadline), deadline)

def holding {α : Type} (name : String) (body : Lock → Action α) : Action α := do
  let place ← Action.read fun host => engine.baselinePlace host.disk name
  Lock.holding (.located place) engine.settings.lockTimeout body

/-- Stage both documents and put both in their places. Whatever is staged when a step fails is
discarded. -/
def replaceBoth (checksumLock symbolLock : Lock) (checksums : ChecksumBaseline)
    (symbols : SymbolBaseline) : Action (ChecksumBaseline × SymbolBaseline) := do
  let (checksums, checksumWrite) ← Document.stage checksumLock checksums
  let (symbols, symbolWrite) ←
    Action.onError (Document.stage symbolLock symbols) checksumWrite.discard
  Action.onError checksumWrite.commit symbolWrite.discard
  symbolWrite.commit
  pure (checksums, symbols)

def writeLocked (expectation : Expectation) (checksums : ChecksumBaseline)
    (extraction : Extraction) (checksumLock symbolLock : Lock) : Action BaselineSummary := do
  Action.read fun host => engine.expectBaselines expectation host.disk
  let fresh := SymbolBaseline.fresh (Location.path engine.boundary.root).text extraction.symbols
  let (checksums, symbols) ← replaceBoth checksumLock symbolLock checksums fresh
  pure ⟨checksums.fileCount, symbols.symbolCount, extraction.skipped⟩

/-- Take both snapshots and replace both baselines by them. The checksum baseline is locked
first. -/
def writeBaselines (expectation : Expectation) : Action BaselineSummary := do
  let (checksums, extraction) ← Action.read engine.snapshots
  engine.holding checksumBaselineName fun checksumLock =>
    engine.holding symbolBaselineName
      (engine.writeLocked expectation checksums extraction checksumLock)

/-- Write baselines if those that are there are as expected before and under the locks. -/
def replaceBaselines (expectation : Expectation) : Action BaselineSummary := do
  Action.read fun host => engine.expectBaselines expectation host.disk
  engine.writeBaselines expectation

/-- Write the first baselines. With `reset`, those that are there are replaced. -/
def create (reset : Bool) : Action BaselineSummary :=
  engine.replaceBaselines (if reset then .anything else .absent)

/-- Replace the baselines that are there and keep the time of their first save. -/
def update : Action BaselineSummary :=
  engine.replaceBaselines .present

end Engine

end SourceBaseline
