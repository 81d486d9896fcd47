import Mathlib.Algebra.GroupWithZero.Nat
import SourceBaseline.Proofs.Engine.Stability
import SourceBaseline.Proofs.Extraction

/-!
# Documents that agree

Both documents of a run and its summary come from one tree, which two walks list alike: what one of
them says about a file, the others do not deny.
-/

set_option autoImplicit false

namespace SourceBaseline

/-- Two documents and the summary of the run that wrote them tell the same about the same files. -/
structure Agree (checksums : ChecksumBaseline) (symbols : SymbolBaseline) (summary : BaselineSummary) :
    Prop where
  counted : checksums.fileCount = checksums.files.entries.length
  files : summary.files = checksums.fileCount
  documented : checksums.docsExist = true ↔ ∃ path, checksums.docsPath = some path
  tracked : ∀ entry ∈ symbols.symbols.entries, entry.1 ∈ checksums.files.keys
  nonempty : ∀ entry ∈ symbols.symbols.entries, entry.2 ≠ []
  ordered : ∀ entry ∈ symbols.symbols.entries, entry.2.Pairwise Symbol.Precedes
  own : ∀ entry ∈ symbols.symbols.entries, ∀ symbol ∈ entry.2, symbol.file = entry.1
  total : summary.symbols = (symbols.symbols.entries.map fun entry => entry.2.length).sum
  skipped : ∀ skip ∈ summary.skipped,
    skip.1 ∈ checksums.files.keys ∧ skip.1 ∉ symbols.symbols.keys

namespace Engine

variable {engine : Engine} {host later : Host} {checksums : ChecksumBaseline} {symbols : SymbolBaseline}
  {extraction : Extraction}

/-- Under both locks, taken one after the other, these documents are staged and put in the places of
the baselines. -/
inductive Records (engine : Engine) (host : Host) :
    ChecksumBaseline → SymbolBaseline → Host → Prop where
  | intro {first second : Location} {lock lockToo : Lock} {raw checksums : ChecksumBaseline}
      {rawToo symbols : SymbolBaseline} {finished : Host} :
      engine.baselinePlace host.disk checksumBaselineName = .ok first →
      Lock.acquire (.located first) engine.settings.lockTimeout host =
        (.ok lock, engine.lockedFor checksumBaselineName host) →
      engine.baselinePlace (engine.lockedFor checksumBaselineName host).disk symbolBaselineName =
        .ok second →
      Lock.acquire (.located second) engine.settings.lockTimeout
          (engine.lockedFor checksumBaselineName host) =
        (.ok lockToo,
          engine.lockedFor symbolBaselineName (engine.lockedFor checksumBaselineName host)) →
      replaceBoth lock lockToo raw rawToo
          (engine.lockedFor symbolBaselineName (engine.lockedFor checksumBaselineName host)) =
        (.ok (checksums, symbols), finished) →
      Records engine host checksums symbols
        { finished with disk := lock.drop (lockToo.drop finished.disk) }

/-- Where the baselines are untangled, the documents stand in their places afterwards. -/
theorem Records.stand (records : engine.Records host checksums symbols later)
    (untangled : engine.Untangled host) :
    ∃ first second, engine.baselinePlace host.disk checksumBaselineName = .ok first ∧
      engine.baselinePlace (engine.lockedFor checksumBaselineName host).disk symbolBaselineName =
        .ok second ∧
      later.disk.find? first = some (.file (Document.bytes checksums) 0) ∧
      later.disk.find? second = some (.file (Document.bytes symbols) 0) := by
  cases records with
  | @intro first second lock lockToo _ _ _ _ finished placed acquired placedToo acquiredToo replaced =>
      have held := held_of_acquired untangled placed acquired placedToo acquiredToo
      obtain ⟨stands, standsToo⟩ :=
        stands_of_replaceBoth held.guards held.guardsToo held.apart replaced
      have changes := (stays_replaceBoth (held.guards.target ▸ held.guards.sheltered)
        (held.guardsToo.target ▸ held.guardsToo.sheltered)).changesBelow replaced
      have drops := fun location (spared : engine.Spares host location) =>
        (held.drops changes spared).same
      exact ⟨first, second, placed, placedToo,
        (drops first (untangled first (.checksums placed))).trans stands,
        (drops second (untangled second (.symbolsLocked placedToo))).trans standsToo⟩

theorem stamped_of_replaceBoth {lock lockToo : Lock} {raw : ChecksumBaseline} {rawToo : SymbolBaseline}
    (ran : replaceBoth lock lockToo raw rawToo host = (.ok (checksums, symbols), later)) :
    (∃ prior now, checksums = Document.stamped raw prior now) ∧
      ∃ prior now, symbols = Document.stamped rawToo prior now := by
  rcases Action.bind_cases ran with ⟨_, ⟨⟩, _⟩ | ⟨⟨kept, write⟩, between, staged, ran⟩
  rcases Action.bind_cases ran with ⟨_, ⟨⟩, _⟩ | ⟨⟨keptToo, writeToo⟩, ready, stagedToo, ran⟩
  rcases Action.bind_cases ran with ⟨_, ⟨⟩, _⟩ | ⟨_, _, _, ran⟩
  rcases Action.bind_cases ran with ⟨_, ⟨⟩, _⟩ | ⟨_, _, _, finished⟩
  cases finished
  exact ⟨⟨_, _, (Document.exists_of_stage staged).1⟩,
    ⟨_, _, (Document.exists_of_stage (Action.eq_ok_of_onError stagedToo)).1⟩⟩

/-- The snapshots of one tree agree, whenever they are saved. -/
theorem agree_of_snapshots (taken : engine.snapshots host = .ok (checksums, extraction))
    (root : String) (prior priorToo : Option String) (now nowToo : String) :
    Agree (Document.stamped checksums prior now)
      (Document.stamped (SymbolBaseline.fresh root extraction.symbols) priorToo nowToo)
      ⟨checksums.files.size, (SymbolBaseline.fresh root extraction.symbols).symbolCount,
        extraction.skipped⟩ := by
  obtain ⟨left, snapped, extracted⟩ := exists_of_snapshots taken
  obtain ⟨listed, walked, extracted⟩ := bind_eq_ok_iff.1 extracted
  have hashes : checksums.files = hashFiles host.disk listed := by
    rw [files_of_snapshot_eq snapped, hashes, ← Walk.listed_of_enumerate walked]
  have documented : checksums.docsExist = checksums.docsPath.isSome := by
    obtain ⟨_, _, snapped⟩ := bind_eq_ok_iff.1 snapped
    cases snapped
    rfl
  have tracked : ∀ file ∈ listed, file.relative ∈ checksums.files.keys := by
    intro file member
    rw [hashes, SortedMap.mem_keys_iff, ← Option.ne_none_iff_exists', Ne, hashFiles,
      SortedMap.find?_ofList_eq_none_iff]
    exact fun absent => absent _ (List.mem_map_of_mem member) rfl
  have found := fun entry (member : entry ∈ extraction.symbols.entries) =>
    Registry.found_of_extract extracted member
  refine {
    counted := rfl
    files := rfl
    documented := ?_
    tracked := ?_
    nonempty := ?_
    ordered := ?_
    own := ?_
    total := ?_
    skipped := ?_ }
  · change checksums.docsExist = true ↔ ∃ path, checksums.docsPath = some path
    rw [documented, Option.isSome_iff_exists]
  · intro entry member
    obtain ⟨file, inside, here⟩ := found entry member
    exact Registry.relative_of_found? here ▸ tracked file inside
  · intro entry member
    obtain ⟨file, _, here⟩ := found entry member
    exact (Registry.exists_of_found? here).2
  · intro entry member
    obtain ⟨file, _, here⟩ := found entry member
    exact (Extractor.ordered_of_extractFile (Registry.exists_of_found? here).1).1
  · intro entry member symbol inside
    obtain ⟨file, _, here⟩ := found entry member
    rw [Registry.relative_of_found? here]
    exact (Extractor.ordered_of_extractFile (Registry.exists_of_found? here).1).2 symbol inside
  · change extraction.symbols.values.flatten.length = _
    rw [SortedMap.values, List.length_flatten, List.map_map]
    rfl
  · intro skip member
    obtain ⟨file, inside, same, failed⟩ := Registry.skipped_of_extract extracted member
    refine ⟨same ▸ tracked file inside, fun both => ?_⟩
    -- A path is read in one place, so it cannot have symbols and be skipped.
    obtain ⟨entry, recorded, key⟩ := List.mem_map.1 both
    obtain ⟨other, insideToo, here⟩ := found entry recorded
    obtain rfl : file = other := Walk.eq_of_relative walked inside insideToo
      (same.symm.trans (key.symm.trans (Registry.relative_of_found? here)))
    cases (Registry.exists_of_found? here).1.symm.trans failed

/-- An engine with every language for which every file holds one function. -/
def toolEngine : Engine :=
  let name : SyntaxNode := ⟨"word", true, some "name", 0, 1, []⟩
  let definition : SyntaxNode := ⟨"function_definition", true, none, 0, 4, [name]⟩
  { plainEngine with
    extractor := ⟨.standard, fun _ _ => ⟨"program", true, none, 0, 4, [definition]⟩⟩ }

/-- A project with a script and a file that is no text. -/
def toolDisk : Disk :=
  (Boundary.leavingDisk.put ["project"] "a.py" (.file ⟨#[255]⟩ 0)).put ["project"] "b.sh"
    (.file "f();".toUTF8 0)

end Engine

end SourceBaseline
