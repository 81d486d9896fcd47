import SourceBaseline.Proofs.Baseline.Document
import SourceBaseline.Proofs.Boundary.Standing
import SourceBaseline.Proofs.Engine.Footprint
import SourceBaseline.Proofs.Engine.Isolation
import SourceBaseline.Proofs.Engine.Replacement
import SourceBaseline.Proofs.Snapshot

/-!
# Baselines that are read back

What was written reads back as the snapshots that it was made from, and the exclude rules, which have
already kept the walk from what they exclude, take nothing away. So later changes are told from these
very snapshots.
-/

set_option autoImplicit false

namespace SourceBaseline

theorem Document.text_of_standsAt {α : Type} [Document α] {document : α} {place : Location}
    {disk : Disk} {text : String} (sheltered : (Target.located place).Sheltered [] disk)
    (stands : StandsAt document place disk)
    (read : loadText? disk (Location.route place) = .ok (some text)) :
    ∃ prior now, text = documentText (toJson (stamped document prior now)) := by
  obtain ⟨prior, now, stands⟩ := stands
  obtain ⟨directory, name, located, isName, shelters⟩ := sheltered
  cases located
  have free : disk.LinkFree (directory ++ [name]) :=
    shelters.free.concat fun _ link => nomatch stands.symm.trans link
  unfold loadText? at read
  split at read
  next found readable =>
    cases read
    obtain ⟨content, readable, decoded⟩ := bind_eq_ok_iff.1 readable
    obtain ⟨entry, inspected, content⟩ := bind_eq_ok_iff.1 readable
    have found := Disk.find?_of_inspect (shelters.named_concat isName) free inspected
    cases stands.symm.trans found
    cases content
    rw [fromUTF8?_bytes] at decoded
    cases decoded
    exact ⟨prior, now, rfl⟩
  next => cases read
  next => cases read

theorem ChecksumBaseline.load_of_stands {baseline : ChecksumBaseline} {place : Location} {disk : Disk}
    {age : Nat} (named : ∀ name ∈ place, IsName name)
    (stands : disk.find? place = some (.file (Document.bytes baseline) age)) (fits : place.Fits)
    (count : baseline.fileCount < countBound) :
    load disk (Location.route place) = .ok (some baseline) := by
  have decoded : ofText? (documentText (Document.toJson baseline)) = some baseline :=
    ofText?_documentText count
  unfold load loadText? Disk.readText Disk.read
  rw [Disk.inspect_of_stands named stands rfl fits]
  simp only [bind, Except.bind, Document.fromUTF8?_bytes, pure, Except.pure, Option.bind_some, decoded]

theorem SymbolBaseline.ofText?_stamped_fresh (root : String) (symbols : SymbolMap)
    (prior : Option String) (now : String) :
    ofText? (documentText (Document.toJson (Document.stamped (fresh root symbols) prior now))) =
      some (Document.stamped (fresh root symbols) prior now) := by
  apply ofText?_documentText
  change SourceBaseline.schemaVersion ≠ ""
  decide

namespace Engine

variable {engine : Engine} {host : Host} {name : String}

/-- What the path of a baseline leads to, read as a text. -/
def stored (engine : Engine) (disk : Disk) (name : String) : Outcome (Option String) := do
  loadText? disk (Location.route (← engine.baselinePlace disk name))

/-! ## What the operations come to -/

theorem exists_of_snapshots {checksums : ChecksumBaseline} {extraction : Extraction}
    (taken : engine.snapshots host = .ok (checksums, extraction)) :
    ∃ left, snapshot engine.walk host.disk host.git
        (.start "snapshot" (some engine.settings.timeout)) = .ok (checksums, left) ∧
      engine.extraction host.disk left = .ok extraction := by
  obtain ⟨⟨both, deadline⟩, taken, finished⟩ := bind_eq_ok_iff.1 taken
  obtain ⟨_, _, same⟩ := bind_eq_ok_iff.1 finished
  cases same
  obtain ⟨⟨baseline, left⟩, snapped, taken⟩ := bind_eq_ok_iff.1 taken
  obtain ⟨found, extracted, same⟩ := bind_eq_ok_iff.1 taken
  cases same
  exact ⟨_, snapped, extracted⟩

theorem exists_of_check {changes : List FileChange} (checked : engine.check host = .ok changes) :
    ∃ text baseline current left,
      engine.stored host.disk checksumBaselineName = .ok (some text) ∧
      ChecksumBaseline.ofText? text = some baseline ∧
      snapshot engine.walk host.disk host.git (.start "check" (some engine.settings.timeout)) =
        .ok (current, left) ∧
      changes = compareChecksums (baseline.retainTracked engine.exclude).files current.files := by
  obtain ⟨place, placed, checked⟩ := bind_eq_ok_iff.1 checked
  obtain ⟨loaded, load, checked⟩ := bind_eq_ok_iff.1 checked
  obtain ⟨stood, read, same⟩ := bind_eq_ok_iff.1 load
  cases same
  split at checked
  next => cases checked
  next baseline found =>
    obtain ⟨text, rfl, decoded⟩ := Option.bind_eq_some_iff.1 found
    obtain ⟨⟨both, deadline⟩, compared, finished⟩ := bind_eq_ok_iff.1 checked
    obtain ⟨_, _, same⟩ := bind_eq_ok_iff.1 finished
    cases same
    obtain ⟨⟨current, left⟩, snapped, same⟩ := bind_eq_ok_iff.1 compared
    cases same
    exact ⟨text, baseline, current, _, bind_eq_ok_iff.2 ⟨place, placed, read⟩, decoded, snapped, rfl⟩

theorem exists_of_semanticDiff {changes : List SemanticChange}
    (compared : engine.semanticDiff host = .ok changes) :
    ∃ text baseline current,
      engine.stored host.disk symbolBaselineName = .ok (some text) ∧
      SymbolBaseline.ofText? text = some baseline ∧
      engine.extraction host.disk (.start "semantic_diff" (some engine.settings.timeout)) =
        .ok current ∧
      changes = compareSymbols
        (baseline.symbols.filter fun file _ => !engine.exclude.isExcluded file) current.symbols
        engine.settings.visibilityPolicy := by
  obtain ⟨place, placed, compared⟩ := bind_eq_ok_iff.1 compared
  obtain ⟨loaded, load, compared⟩ := bind_eq_ok_iff.1 compared
  obtain ⟨stood, read, same⟩ := bind_eq_ok_iff.1 load
  cases same
  split at compared
  next => cases compared
  next baseline found =>
    obtain ⟨text, rfl, decoded⟩ := Option.bind_eq_some_iff.1 found
    obtain ⟨⟨both, deadline⟩, compared, finished⟩ := bind_eq_ok_iff.1 compared
    obtain ⟨_, _, same⟩ := bind_eq_ok_iff.1 finished
    cases same
    obtain ⟨current, extracted, same⟩ := bind_eq_ok_iff.1 compared
    cases same
    exact ⟨text, baseline, current, bind_eq_ok_iff.2 ⟨place, placed, read⟩, decoded, extracted, rfl⟩

theorem symbols_of_extraction {disk : Disk} {deadline : Deadline} {extraction : Extraction}
    (extracted : engine.extraction disk deadline = .ok extraction) :
    extraction.symbols.filter (fun file _ => !engine.exclude.isExcluded file) =
      extraction.symbols := by
  obtain ⟨files, listed, extracted⟩ := bind_eq_ok_iff.1 extracted
  apply SortedMap.filter_eq_self
  intro entry member
  obtain ⟨file, inside, same⟩ := Registry.files_of_extract extracted entry member
  have kept := Walk.not_excluded_of_enumerate listed inside
  rw [same]
  simpa [walk] using kept

/-! ## From the snapshots to the changes -/

theorem text_of_stored {α : Type} [Document α] {document : α} {place : Location} {disk : Disk}
    {text : String} (sheltered : (Target.located place).Sheltered [] disk)
    (stands : Document.StandsAt document place disk)
    (settled : ∀ reached, engine.baselinePlace disk name = .ok reached → reached = place)
    (found : engine.stored disk name = .ok (some text)) :
    ∃ prior now, text = documentText (Document.toJson (Document.stamped document prior now)) := by
  obtain ⟨reached, placed, read⟩ := bind_eq_ok_iff.1 found
  obtain rfl := settled reached placed
  exact Document.text_of_standsAt sheltered stands read

/-- If the path of a baseline led to a place and leads to one afterwards, it is the same. -/
def Settled (engine : Engine) (before after : Disk) (name : String) : Prop :=
  ∀ place reached, engine.baselinePlace before name = .ok place →
    engine.baselinePlace after name = .ok reached → reached = place

theorem settled_of_descends {before after : Disk} (descends : engine.Descends before name)
    (descendsToo : engine.Descends after name) : engine.Settled before after name := by
  intro place reached found foundThen
  obtain ⟨location, steps, _, _, free, _⟩ := descends
  obtain ⟨other, stepsToo, _, _, freeToo, _⟩ := descendsToo
  cases steps.symm.trans stepsToo
  rw [(Boundary.eq_of_descent? steps (Boundary.refusesLinks_of_linkFree free) found).1,
    (Boundary.eq_of_descent? steps (Boundary.refusesLinks_of_linkFree freeToo) foundThen).1]

theorem settled_of_written (stands : host.disk.find? engine.boundary.root ≠ none)
    (checksums : engine.Descends host.disk checksumBaselineName)
    (symbols : engine.Descends host.disk symbolBaselineName) {run : Action BaselineSummary}
    (writes : run = engine.update ∨ ∃ reset, run = engine.create reset) :
    engine.Settled host.disk (run host).2.disk checksumBaselineName ∧
      engine.Settled (engine.lockedFor checksumBaselineName host).disk (run host).2.disk
        symbolBaselineName := by
  obtain ⟨expectation, rfl⟩ := replaces_of_writes writes
  have symbolsThen := symbols.later (changesBelow_lockedFor checksums.isolates.confines stands)
  have changes : Disk.ChangesBelow engine.boundary.root host.disk
      (engine.replaceBaselines expectation host).2.disk :=
    stays_replaceBaselines stands checksums.isolates.confines symbolsThen.isolates.confines
  exact ⟨settled_of_descends checksums (checksums.later changes),
    settled_of_descends symbolsThen (symbols.later changes)⟩

section Recorded

variable {run : Action BaselineSummary} {summary : BaselineSummary} {after later : Host}

/-- As long as the baselines' paths lead to where they were written, and their texts are as they were
left, they decode to the snapshots that were written. -/
theorem recorded_of_written (untangled : engine.Untangled host)
    (bounded : engine.settings.maxFiles < ChecksumBaseline.countBound)
    (writes : run = engine.update ∨ ∃ reset, run = engine.create reset)
    (ran : run host = (.ok summary, after))
    (settled : engine.Settled host.disk after.disk checksumBaselineName)
    (settledToo : engine.Settled (engine.lockedFor checksumBaselineName host).disk after.disk
      symbolBaselineName)
    (untouched : ∀ name ∈ [checksumBaselineName, symbolBaselineName],
      engine.stored later.disk name = engine.stored after.disk name) :
    ∃ checksums extraction, engine.snapshots host = .ok (checksums, extraction) ∧
      (∀ text baseline, engine.stored later.disk checksumBaselineName = .ok (some text) →
        ChecksumBaseline.ofText? text = some baseline → baseline.files = checksums.files) ∧
      ∀ text baseline, engine.stored later.disk symbolBaselineName = .ok (some text) →
        SymbolBaseline.ofText? text = some baseline → baseline.symbols = extraction.symbols := by
  obtain ⟨expectation, rfl⟩ := replaces_of_writes writes
  rcases replaceBaselines_cases untangled ran with ⟨_, ⟨⟩, _⟩ |
    ⟨checksums, extraction, first, second, taken, placed, placedToo, sheltered, shelteredToo, ends⟩
  cases ends with
  | both stands standsToo =>
      obtain ⟨left, snapped, extracted⟩ := exists_of_snapshots taken
      refine ⟨checksums, extraction, taken, ?_, ?_⟩
      · intro text baseline found decoded
        rw [untouched _ (by simp)] at found
        obtain ⟨prior, now, rfl⟩ := text_of_stored sheltered stands (settled first · placed) found
        have fits : (Document.stamped checksums prior now).fileCount < ChecksumBaseline.countBound :=
          Nat.lt_of_le_of_lt (files_of_snapshot snapped).1 bounded
        cases (ChecksumBaseline.ofText?_documentText fits).symm.trans decoded
        rfl
      · intro text baseline found decoded
        rw [untouched _ (by simp)] at found
        obtain ⟨prior, now, rfl⟩ :=
          text_of_stored shelteredToo standsToo (settledToo second · placedToo) found
        cases (SymbolBaseline.ofText?_stamped_fresh _ _ prior now).symm.trans decoded
        rfl

end Recorded

/-- Where `plainEngine` has no state directory yet, its baselines are found side by side. -/
theorem sideBySide_plain {disk : Disk} (real : disk.find? ["project"] = some .directory)
    (missing : disk.find? plainEngine.stateDirectory = none) :
    plainEngine.SideBySide (plainHost disk) plainMemory :=
  sideBySide_of_descends (by decide) (descends_plain real missing (.inl rfl))
    (descends_plain real missing (.inr rfl))

/-- A project whose baselines are links that come through a part that is missing at first: the link
beside them leads into a directory of its own, with an older baseline above. -/
def detourDisk : Disk :=
  let state := Boundary.leavingDisk.put ["project"] ".driftline" .directory
  let memory := state.put ["project", ".driftline"] "memory" .directory
  let inner := (memory.put plainMemory "sub" .directory).put (plainMemory ++ ["sub"]) "deep" .directory
  let older := inner.put (plainMemory ++ ["sub"]) "a.json"
    (.file "\x7b\"fileCount\":1,\"files\":\x7b\"old\":\"\"\x7d,\"schemaVersion\":\"1.0\"\x7d".toUTF8 0)
  let linked := older.put plainMemory "link" (.link ⟨"sub/deep"⟩)
  (linked.put plainMemory "repo-baseline.json" (.link ⟨"nope/../link/../a.json"⟩)).put plainMemory
    "symbol-baseline.json" (.link ⟨"nope/s.json"⟩)

end Engine

end SourceBaseline
