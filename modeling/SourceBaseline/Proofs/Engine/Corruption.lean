import SourceBaseline.Proofs.Engine.Readback
import SourceBaseline.Proofs.Walk.Enumeration

/-!
# Baselines that cannot be read

A text that is no baseline counts as an absent baseline, and an operation that loads one can fail
beyond that only where a limit is reached. A file that is no text is not forgiven: it is an I/O error.
-/

set_option autoImplicit false

namespace SourceBaseline

/-- The error says that a limit was reached, of time or of files. -/
def Error.isLimit : Error → Bool
  | .tooManyEntries _ _ _ => true
  | .timedOut _ _ _ => true
  | _ => false

/-- Nothing but a limit keeps the outcome from being a success. -/
def Outcome.OnlyLimited {α : Type} (outcome : Outcome α) : Prop :=
  ∀ error, outcome = .error error → error.isLimit = true

namespace Outcome.OnlyLimited

variable {α β : Type}

theorem ok (value : α) : OnlyLimited (.ok value) :=
  fun _ failed => nomatch failed

theorem bind {first : Outcome α} {next : α → Outcome β} (limited : OnlyLimited first)
    (limitedNext : ∀ value, OnlyLimited (next value)) : OnlyLimited (first >>= next) := by
  intro error failed
  cases found : first with
  | error fault =>
      rw [found] at failed
      cases failed
      exact limited error found
  | ok value =>
      rw [found] at failed
      exact limitedNext value error failed

end Outcome.OnlyLimited

section Limits

variable {disk : Disk} {deadline : Deadline}

theorem Deadline.onlyLimited_check : deadline.check.OnlyLimited := by
  intro error failed
  unfold check at failed
  split at failed
  next => cases failed; rfl
  next => cases failed

theorem Deadline.onlyLimited_run {α : Type} {operation : String} {limit : Nat}
    {body : Deadline → Outcome (α × Deadline)} (limited : ∀ deadline, (body deadline).OnlyLimited) :
    (run operation limit body).OnlyLimited :=
  (limited _).bind fun found => found.2.onlyLimited_check.bind fun _ => .ok found.1

theorem Walk.onlyLimited_enumerate {walk : Walk} : (walk.enumerate disk deadline).OnlyLimited := by
  rw [enumerate_eq]
  refine deadline.onlyLimited_check.bind fun _ => ?_
  intro error failed
  split at failed
  next => cases failed; rfl
  next => cases failed

theorem Registry.onlyLimited_extract {α ε : Type} {registry : Registry α} {adapter : Adapter α ε}
    {files : List TrackedFile} : (registry.extract adapter disk files deadline).OnlyLimited := by
  unfold extract
  generalize (⟨.empty, []⟩ : Extraction ε) = found
  induction files generalizing found with
  | nil => exact .ok found
  | cons file rest ih =>
      rw [List.foldlM_cons]
      exact (deadline.onlyLimited_check.bind fun _ => .ok _).bind fun next => ih next

theorem onlyLimited_snapshot {walk : Walk} {git : Git} :
    (snapshot walk disk git deadline).OnlyLimited :=
  walk.onlyLimited_enumerate.bind fun _ => .ok _

theorem Engine.onlyLimited_extraction {engine : Engine} :
    (engine.extraction disk deadline).OnlyLimited :=
  engine.walk.onlyLimited_enumerate.bind fun _ => Registry.onlyLimited_extract

end Limits

/-! ## Loading a file -/

section Loading

variable {disk : Disk} {route : Route} {content : ByteArray} {age : Nat}

theorem readText_of_file (stands : disk.inspect route = .ok (.file content age)) :
    disk.readText route = match String.fromUTF8? content with
      | some text => .ok text
      | none => .error .notText := by
  unfold Disk.readText Disk.read
  rw [stands]
  rfl

theorem fromUTF8?_eq_none_iff : String.fromUTF8? content = none ↔ ¬ content.IsValidUTF8 := by
  unfold String.fromUTF8?
  split <;> simp_all

theorem exists_fromUTF8?_iff :
    (∃ text, String.fromUTF8? content = some text) ↔ content.IsValidUTF8 := by
  rw [← Option.isSome_iff_exists, ← Option.ne_none_iff_isSome, ne_eq, fromUTF8?_eq_none_iff,
    Classical.not_not]

/-- What a file loads as, where its text is read by a function. -/
def loadedAs {α : Type} (read : String → Option α) (content : ByteArray) : Outcome (Option α) :=
  match String.fromUTF8? content with
  | some text => .ok (read text)
  | none => .error (.disk .notText)

theorem loadText?_of_file (stands : disk.inspect route = .ok (.file content age)) :
    loadText? disk route = loadedAs some content := by
  unfold loadText? loadedAs
  rw [readText_of_file stands]
  cases String.fromUTF8? content <;> rfl

theorem ChecksumBaseline.load_of_file (stands : disk.inspect route = .ok (.file content age)) :
    load disk route = loadedAs ofText? content := by
  unfold load
  rw [loadText?_of_file stands]
  unfold loadedAs
  cases String.fromUTF8? content <;> rfl

theorem SymbolBaseline.load_of_file (stands : disk.inspect route = .ok (.file content age)) :
    load disk route = loadedAs ofText? content := by
  unfold load
  rw [loadText?_of_file stands]
  unfold loadedAs
  cases String.fromUTF8? content <;> rfl

theorem exists_loadedAs_iff {α : Type} {read : String → Option α} :
    (∃ loaded, loadedAs read content = .ok loaded) ↔ content.IsValidUTF8 := by
  rw [← exists_fromUTF8?_iff]
  unfold loadedAs
  cases String.fromUTF8? content with
  | none => simp
  | some text => simp

end Loading

namespace Engine

variable {engine : Engine} {host : Host} {content : ByteArray} {age : Nat} {place : Location}

/-- What an operation answers that loads a baseline from a file. A file that is no text is an I/O
error, and a text without a baseline is a baseline that is not there. -/
inductive Answers {α β : Type} (name : String) (content : ByteArray) (read : String → Option α) :
    Outcome β → Prop where
  | notText : ¬ content.IsValidUTF8 → Answers name content read (.error (.disk .notText))
  | absent {text : String} :
      String.fromUTF8? content = some text → read text = none →
      Answers name content read (.error (.baselineNotFound name))
  | present {text : String} {baseline : α} {outcome : Outcome β} :
      String.fromUTF8? content = some text → read text = some baseline → outcome.OnlyLimited →
      Answers name content read outcome

theorem answers_of_loadedAs {α β : Type} {name : String} {read : String → Option α}
    {finish : Option α → Outcome β} (absent : finish none = .error (.baselineNotFound name))
    (limited : ∀ baseline, (finish (some baseline)).OnlyLimited) :
    Answers name content read (loadedAs read content >>= finish) := by
  unfold loadedAs
  cases decoded : String.fromUTF8? content with
  | none => exact .notText (fromUTF8?_eq_none_iff.1 decoded)
  | some text =>
      change Answers name content read (finish (read text))
      cases found : read text with
      | none => exact absent ▸ .absent decoded found
      | some baseline => exact .present decoded found (limited baseline)

theorem answers_check (placed : engine.baselinePlace host.disk checksumBaselineName = .ok place)
    (stands : host.disk.inspect (Location.route place) = .ok (.file content age)) :
    Answers checksumBaselineName content ChecksumBaseline.ofText? (engine.check host) := by
  unfold check
  rw [placed]
  change Answers _ _ _ (ChecksumBaseline.load host.disk (Location.route place) >>= _)
  rw [ChecksumBaseline.load_of_file stands]
  refine answers_of_loadedAs rfl fun baseline => Deadline.onlyLimited_run fun deadline => ?_
  exact onlyLimited_snapshot.bind fun _ => .ok _

theorem answers_semanticDiff
    (placed : engine.baselinePlace host.disk symbolBaselineName = .ok place)
    (stands : host.disk.inspect (Location.route place) = .ok (.file content age)) :
    Answers symbolBaselineName content SymbolBaseline.ofText? (engine.semanticDiff host) := by
  unfold semanticDiff
  rw [placed]
  change Answers _ _ _ (SymbolBaseline.load host.disk (Location.route place) >>= _)
  rw [SymbolBaseline.load_of_file stands]
  refine answers_of_loadedAs rfl fun baseline => Deadline.onlyLimited_run fun deadline => ?_
  exact engine.onlyLimited_extraction.bind fun _ => .ok _

/-- A baseline loads, as a document or as none, exactly if its file is a text. `check` and
`semanticDiff` then answer a text without a baseline as one that is not there, and fail beyond that
only where a limit is reached. -/
theorem loads_iff_text {disk : Disk} {route : Route}
    (stands : disk.inspect route = .ok (.file content age)) :
    ((∃ loaded, ChecksumBaseline.load disk route = .ok loaded) ↔ content.IsValidUTF8) ∧
      ((∃ loaded, SymbolBaseline.load disk route = .ok loaded) ↔ content.IsValidUTF8) ∧
      ∀ (engine : Engine) (host : Host) (place : Location), host.disk = disk →
        Location.route place = route →
        (engine.baselinePlace disk checksumBaselineName = .ok place →
          Answers checksumBaselineName content ChecksumBaseline.ofText? (engine.check host)) ∧
        (engine.baselinePlace disk symbolBaselineName = .ok place →
          Answers symbolBaselineName content SymbolBaseline.ofText? (engine.semanticDiff host)) := by
  rw [ChecksumBaseline.load_of_file stands, SymbolBaseline.load_of_file stands]
  refine ⟨exists_loadedAs_iff, exists_loadedAs_iff, ?_⟩
  rintro engine host place rfl rfl
  exact ⟨fun placed => answers_check placed stands, fun placed => answers_semanticDiff placed stands⟩

theorem loads_iff_text_spoilt :
    let content := "\x7b not json".toUTF8
    let disk := memoryDisk "repo-baseline.json" (.file content 0)
    let place := plainMemory ++ ["repo-baseline.json"]
    disk.inspect (Location.route place) = .ok (.file content 0) ∧
      plainEngine.baselinePlace disk checksumBaselineName = .ok place ∧
      (∃ loaded, ChecksumBaseline.load disk (Location.route place) = .ok loaded) ∧
      Answers checksumBaselineName content ChecksumBaseline.ofText?
        (plainEngine.check (plainHost disk)) ∧
      plainEngine.check (plainHost disk) = .error (.baselineNotFound checksumBaselineName) := by
  intro content disk place
  have stands : disk.inspect (Location.route place) = .ok (.file content 0) := by decide +kernel
  have placed : plainEngine.baselinePlace disk checksumBaselineName = .ok place := by decide +kernel
  obtain ⟨loads, _, answers⟩ := loads_iff_text stands
  refine ⟨stands, placed, loads.2 (String.isValidUTF8 _), ?_, by decide +kernel⟩
  exact (answers plainEngine (plainHost disk) place rfl rfl).1 placed

/-- A file that is no text does not load, and `check` answers with an I/O error. -/
theorem check_fails_on_bytes :
    let disk := memoryDisk "repo-baseline.json" (.file ⟨#[255]⟩ 0)
    let place := plainMemory ++ ["repo-baseline.json"]
    disk.inspect (Location.route place) = .ok (.file ⟨#[255]⟩ 0) ∧
      plainEngine.baselinePlace disk checksumBaselineName = .ok place ∧
      ChecksumBaseline.load disk (Location.route place) = .error (.disk .notText) ∧
      plainEngine.check (plainHost disk) = .error (.disk .notText) := by
  decide +kernel

end Engine

end SourceBaseline
