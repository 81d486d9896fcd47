import SourceBaseline.Proofs.Boundary.Threshold
import SourceBaseline.Proofs.Engine.Corruption
import SourceBaseline.Proofs.Engine.Footprint
import SourceBaseline.Proofs.Engine.Stability

/-!
# Whether baselines are there

An operation that loads a baseline takes a text that is none for a missing one. The first baselines
are written only where no file stands, whatever it holds. So where `check` or `semanticDiff` finds its
baseline missing, `create` may still find baselines there.
-/

set_option autoImplicit false

namespace SourceBaseline

/-- The error says that baselines are there or that they are not. -/
def Error.isPresence : Error → Bool
  | .baselineExists _ => true
  | .baselineNotFound _ => true
  | _ => false

theorem Error.not_isPresence_of_isLimit {error : Error} (limit : error.isLimit = true) :
    error.isPresence = false := by
  cases error with
  | tooManyEntries => rfl
  | timedOut => rfl
  | _ => cases limit

/-- What becomes of a run if baselines are there or not. -/
def Expectation.verdict (expectation : Expectation) (checksums symbols : Bool) : Outcome Unit :=
  match expectation with
  | .absent =>
      if checksums then .error (.baselineExists checksumBaselineName)
      else if symbols then .error (.baselineExists symbolBaselineName)
      else pure ()
  | .anything => pure ()
  | .present =>
      if checksums || symbols then pure () else .error (.baselineNotFound checksumBaselineName)

/-! ## Failures that do not turn on the presence of baselines -/

/-- Whatever keeps the outcome from being a success, it is not whether baselines are there. -/
def Outcome.Impartial {α : Type} (outcome : Outcome α) : Prop :=
  ∀ error, outcome = .error error → error.isPresence = false

namespace Outcome.Impartial

variable {α β : Type}

theorem ok (value : α) : Impartial (.ok value) :=
  fun _ failed => nomatch failed

theorem error {error : Error} (other : error.isPresence = false) :
    Impartial (.error error : Outcome α) := by
  rintro _ ⟨⟩
  exact other

theorem ofDisk (result : Except Fault α) : (Outcome.ofDisk result).Impartial := by
  cases result with
  | ok value => exact ok value
  | error fault => exact error rfl

theorem exists_of_bind {first : Outcome α} {next : α → Outcome β} {error : Error}
    (impartial : first.Impartial) (failed : (first >>= next) = .error error)
    (presence : error.isPresence = true) : ∃ value, first = .ok value ∧ next value = .error error := by
  cases found : first with
  | error fault =>
      rw [found] at failed
      cases failed
      cases (impartial error found).symm.trans presence
  | ok value =>
      rw [found] at failed
      exact ⟨value, rfl, failed⟩

theorem bind {first : Outcome α} {next : α → Outcome β} (impartial : first.Impartial)
    (impartialNext : ∀ value, first = .ok value → (next value).Impartial) :
    (first >>= next).Impartial := by
  cases found : first with
  | error fault => exact error (impartial fault found)
  | ok value => exact impartialNext value found

end Outcome.Impartial

theorem Outcome.OnlyLimited.impartial {α : Type} {outcome : Outcome α} (limited : outcome.OnlyLimited) :
    outcome.Impartial :=
  fun error failed => error.not_isPresence_of_isLimit (limited error failed)

theorem Boundary.Settles.impartial {boundary : Boundary} {disk : Disk} {shown : String}
    {position : Position} {links : Nat} {outcome : Outcome Location}
    (settles : boundary.Settles disk shown position links outcome) : outcome.Impartial := by
  induction settles with
  | arrives => exact .ok _
  | strays => exact .error rfl
  | faults => exact .error rfl
  | leaves => exact .error rfl
  | step _ _ ih => exact ih
  | hop _ _ ih => exact ih

theorem Boundary.impartial_validate (boundary : Boundary) (disk : Disk) (path : Path) :
    (boundary.validate disk path).Impartial := by
  rw [validate_eq_conclude]
  by_cases ends : ∃ links outcome, boundary.Settles disk
      (boundary.redact (boundary.absolute path)) (boundary.start path) links outcome
  · obtain ⟨links, outcome, settles⟩ := ends
    rw [settles.conclude_eq]
    split
    next => exact .error rfl
    next => exact settles.impartial
  · obtain ⟨last, reached⟩ := reaches_of_not_settles ends (boundary.linkBudget + 1)
    rw [reached.conclude_eq (Nat.lt_succ_self _)]
    exact .error rfl

namespace Action

variable {α β : Type} {body : Action α} {cleanup : Action Unit}

/-- The action fails, on whatever host, for other reasons than the presence of baselines. -/
def Impartial (action : Action α) : Prop :=
  ∀ host, Outcome.Impartial (action host).1

theorem Impartial.of_ran {action : Action α} {host later : Host} {error : Error}
    (impartial : action.Impartial) (ran : action host = (.error error, later)) :
    error.isPresence = false :=
  impartial host error (congrArg Prod.fst ran)

theorem answer_bind_cases {question : Host → Outcome α} {next : α → Action β} {host later : Host}
    {error : Error} (ran : (read question >>= next) host = (.error error, later)) :
    question host = .error error ∨
      ∃ value, question host = .ok value ∧ next value host = (.error error, later) := by
  rcases bind_cases ran with ⟨_, ⟨⟩, asked⟩ | ⟨value, _, asked, continued⟩
  · exact .inl (Prod.mk.inj asked).1
  · obtain ⟨found, rfl⟩ := Prod.mk.inj asked
    exact .inr ⟨value, found, continued⟩

theorem impartial_pure (value : α) : Impartial (pure value : Action α) :=
  fun _ => .ok value

theorem impartial_change (step : Disk → Except Fault Disk) : (change step).Impartial := by
  intro host
  unfold change
  split
  next => exact .ok ()
  next => exact .error rfl

theorem impartial_ensureDirectory (routes : List Route) : (ensureDirectory routes).Impartial :=
  fun _ => .ofDisk _

theorem Impartial.bind {first : Action α} {next : α → Action β} (impartial : first.Impartial)
    (impartialNext : ∀ value, (next value).Impartial) : (first >>= next).Impartial := by
  intro host error failed
  rcases bind_cases (eq_of_outcome failed) with ⟨_, ⟨⟩, refused⟩ | ⟨value, between, _, continued⟩
  · exact impartial.of_ran refused
  · exact (impartialNext value).of_ran continued

theorem Impartial.onError (impartial : body.Impartial) : (body.onError cleanup).Impartial := by
  intro host error failed
  obtain ⟨_, refused, _⟩ := exists_of_onError (eq_of_outcome failed)
  exact impartial.of_ran refused

end Action

theorem Lock.impartial_acquire (target : Target) (timeout : Nat) :
    (acquire target timeout).Impartial := by
  refine (Action.impartial_ensureDirectory _).bind fun _ => ?_
  refine Action.Impartial.bind (fun _ => .ok _) fun token host => ?_
  have taken : (take target.lock token timeout host.disk).Impartial := by
    unfold take
    split
    next => exact .ok _
    next =>
      split
      next => exact .ofDisk _
      next => exact .error rfl
    next => exact .error rfl
  split
  next => exact .ok _
  next error failed => exact .error (taken error failed)

theorem StagedWrite.impartial_stage (target : Target) (content : ByteArray) :
    (stage target content).Impartial := by
  refine (Action.impartial_ensureDirectory _).bind fun _ host => ?_
  split
  next => exact .ok _
  next => exact .error rfl

theorem Document.impartial_stage {α : Type} [Document α] (lock : Lock) (document : α) :
    (stage lock document).Impartial := by
  intro host
  rw [stage_apply]
  exact (StagedWrite.impartial_stage _ _).bind (fun staged => Action.impartial_pure _) host

theorem StagedWrite.impartial_commit (staged : StagedWrite) : staged.commit.Impartial :=
  (Action.impartial_change _).onError

namespace Engine

variable {engine : Engine} {expectation : Expectation} {host later : Host} {disk : Disk}
  {name : String} {error : Error}

theorem impartial_snapshots (engine : Engine) (host : Host) : (engine.snapshots host).Impartial := by
  refine (Deadline.onlyLimited_run fun deadline => ?_).impartial
  exact onlyLimited_snapshot.bind fun _ => onlyLimited_extraction.bind fun _ => .ok _

theorem impartial_isStored (engine : Engine) (name : String) (disk : Disk) :
    (engine.isStored name disk).Impartial :=
  (engine.boundary.impartial_validate disk _).bind fun _ _ => .ok _

theorem impartial_replaceBoth (checksumLock symbolLock : Lock) (checksums : ChecksumBaseline)
    (symbols : SymbolBaseline) : (replaceBoth checksumLock symbolLock checksums symbols).Impartial :=
  (Document.impartial_stage checksumLock checksums).bind fun _ =>
    (Document.impartial_stage symbolLock symbols).onError.bind fun _ =>
      (StagedWrite.impartial_commit _).onError.bind fun _ =>
        (StagedWrite.impartial_commit _).bind fun _ => Action.impartial_pure _

/-! ## Where a run is refused -/

theorem exists_of_expectBaselines (failed : engine.expectBaselines expectation disk = .error error)
    (presence : error.isPresence = true) :
    ∃ checksums symbols, engine.isStored checksumBaselineName disk = .ok checksums ∧
      engine.isStored symbolBaselineName disk = .ok symbols ∧
      expectation.verdict checksums symbols = .error error := by
  obtain ⟨checksums, stored, failed⟩ :=
    (engine.impartial_isStored checksumBaselineName disk).exists_of_bind failed presence
  obtain ⟨symbols, storedToo, failed⟩ :=
    (engine.impartial_isStored symbolBaselineName disk).exists_of_bind failed presence
  exact ⟨checksums, symbols, stored, storedToo, failed⟩

theorem holding_of_presence {α : Type} {body : Lock → Action α}
    (ran : engine.holding name body host = (.error error, later))
    (presence : error.isPresence = true) :
    ∃ place lock ended, engine.baselinePlace host.disk name = .ok place ∧
      Lock.acquire (.located place) engine.settings.lockTimeout host =
        (.ok lock, engine.lockedFor name host) ∧
      body lock (engine.lockedFor name host) = (.error error, ended) := by
  rcases Action.answer_bind_cases ran with unplaced | ⟨place, placed, ran⟩
  · cases (engine.boundary.impartial_validate _ _ error unplaced).symm.trans presence
  rcases Lock.holding_cases ran with ⟨_, ⟨⟩, refused⟩ | ⟨lock, locked, ended, acquired, worked, _⟩
  · cases ((Lock.impartial_acquire _ _).of_ran refused).symm.trans presence
  · have same : engine.lockedFor name host = locked := by
      rw [lockedFor, placed]
      exact congrArg Prod.snd acquired
    subst same
    exact ⟨place, lock, ended, placed, acquired, worked⟩

/-- A run that is refused for the presence of baselines is refused at once, or under both locks. -/
theorem replaceBaselines_of_presence
    (ran : engine.replaceBaselines expectation host = (.error error, later))
    (presence : error.isPresence = true) :
    engine.expectBaselines expectation host.disk = .error error ∨
      engine.expectBaselines expectation host.disk = .ok () ∧ ∃ first second lock lockToo,
        engine.baselinePlace host.disk checksumBaselineName = .ok first ∧
        Lock.acquire (.located first) engine.settings.lockTimeout host =
          (.ok lock, engine.lockedFor checksumBaselineName host) ∧
        engine.baselinePlace (engine.lockedFor checksumBaselineName host).disk symbolBaselineName =
          .ok second ∧
        Lock.acquire (.located second) engine.settings.lockTimeout
          (engine.lockedFor checksumBaselineName host) = (.ok lockToo,
            engine.lockedFor symbolBaselineName (engine.lockedFor checksumBaselineName host)) ∧
        engine.expectBaselines expectation
          (engine.lockedFor symbolBaselineName
            (engine.lockedFor checksumBaselineName host)).disk = .error error := by
  rcases Action.answer_bind_cases ran with refused | ⟨⟨⟩, expected, ran⟩
  · exact .inl refused
  rcases Action.answer_bind_cases ran with failed | ⟨⟨checksums, extraction⟩, _, ran⟩
  · cases (engine.impartial_snapshots host error failed).symm.trans presence
  obtain ⟨first, lock, _, placed, acquired, ran⟩ := holding_of_presence ran presence
  obtain ⟨second, lockToo, _, placedToo, acquiredToo, ran⟩ := holding_of_presence ran presence
  refine .inr ⟨expected, first, second, lock, lockToo, placed, acquired, placedToo, acquiredToo, ?_⟩
  rcases Action.answer_bind_cases ran with refused | ⟨_, _, ran⟩
  · exact refused
  rcases Action.bind_cases ran with ⟨_, ⟨⟩, failed⟩ | ⟨_, _, _, finished⟩
  · cases ((impartial_replaceBoth _ _ _ _).of_ran failed).symm.trans presence
  · cases finished

/-! ## Before and under the locks -/

theorem Descends.linkFree {location : Location} (descends : engine.Descends disk name)
    (steps : engine.boundary.descent? (engine.baselinePath name) = some location) :
    disk.LinkFree location := by
  obtain ⟨_, known, _, _, free, _⟩ := descends
  cases known.symm.trans steps
  exact free

section Descending

variable (named : ∀ name ∈ engine.stateDirectory, IsName name)
  (checksums : engine.Descends host.disk checksumBaselineName)
  (symbols : engine.Descends host.disk symbolBaselineName)

theorem isStored_of_leaves {location : Location} {after : Disk} {before later : Bool}
    (descends : engine.Descends disk name)
    (steps : engine.boundary.descent? (engine.baselinePath name) = some location)
    (leaves : disk.Leaves location after) (stored : engine.isStored name disk = .ok before)
    (storedLater : engine.isStored name after = .ok later) : later = before := by
  obtain ⟨place, placed, same⟩ := bind_eq_ok_iff.1 stored
  obtain ⟨placeLater, placedLater, sameLater⟩ := bind_eq_ok_iff.1 storedLater
  have descendsLater := descends.later leaves.changes
  obtain rfl := descends.eq_of_placed steps placed
  obtain rfl := descendsLater.eq_of_placed steps placedLater
  have named := Boundary.isName_of_validate placed
  cases same
  cases sameLater
  rw [Bool.eq_iff_iff, Disk.isPresent_iff named (descendsLater.linkFree steps),
    Disk.isPresent_iff named (descends.linkFree steps), leaves.same]

include named checksums symbols

/-- Under both locks baselines are there or not as they were before, so that a run is refused for
their presence just if it is refused at once. -/
theorem replaceBaselines_refuses_iff (presence : error.isPresence = true) :
    (engine.replaceBaselines expectation host).1 = .error error ↔
      engine.expectBaselines expectation host.disk = .error error := by
  constructor
  · intro refused
    rcases replaceBaselines_of_presence (Action.eq_of_outcome refused) presence with atOnce |
      ⟨expected, first, second, lock, lockToo, placed, acquired, placedToo, acquiredToo, refusedLater⟩
    · exact atOnce
    -- Neither lock is taken where a baseline stands, so both are as they were.
    have beside := sideBySide_of_descends named checksums symbols
    have held := held_of_acquired beside.untangled placed acquired placedToo acquiredToo
    obtain ⟨checksumsLater, symbolsLater, storedLater, storedTooLater, verdict⟩ :=
      exists_of_expectBaselines refusedLater presence
    obtain ⟨checksumsStand, stored, expected⟩ := bind_eq_ok_iff.1 expected
    obtain ⟨symbolsStand, storedToo, expected⟩ := bind_eq_ok_iff.1 expected
    obtain rfl := isStored_of_leaves checksums (descent?_checksums named)
      (held.leaves _ (beside.spares_baseline (.inl rfl))) stored storedLater
    obtain rfl := isStored_of_leaves symbols (descent?_symbols named)
      (held.leaves _ (beside.spares_baseline (.inr rfl))) storedToo storedTooLater
    cases verdict.symm.trans expected
  · intro refused
    have answered : Action.read (fun host => engine.expectBaselines expectation host.disk) host =
        (.error error, host) := Prod.ext refused rfl
    rw [replaceBaselines, Action.bind_apply, answered]

end Descending

/-! ## Baselines that are missed -/

theorem isPresent_of_loadText? {route : Route} {text : Option String}
    (loaded : loadText? disk route = .ok text) : disk.isPresent route = text.isSome := by
  unfold Disk.isPresent
  cases inspected : disk.inspect route with
  | error fault =>
      unfold loadText? Disk.readText Disk.read at loaded
      rw [inspected] at loaded
      cases fault with
      | notFound =>
          cases loaded
          rfl
      | _ => cases loaded
  | ok entry =>
      cases entry with
      | file content age =>
          rw [loadText?_of_file inspected, loadedAs] at loaded
          split at loaded
          next =>
            cases loaded
            rfl
          next => cases loaded
      | directory =>
          unfold loadText? Disk.readText Disk.read at loaded
          rw [inspected] at loaded
          cases loaded
      | link target =>
          unfold loadText? Disk.readText Disk.read at loaded
          rw [inspected] at loaded
          cases loaded

theorem isStored_of_stored {text : Option String} (stored : engine.stored disk name = .ok text) :
    engine.isStored name disk = .ok text.isSome := by
  obtain ⟨place, placed, loaded⟩ := bind_eq_ok_iff.1 stored
  exact bind_eq_ok_iff.2 ⟨place, placed, congrArg Except.ok (isPresent_of_loadText? loaded)⟩

/-- A text stands for the baseline and is none. -/
def Spoilt {α : Type} (engine : Engine) (disk : Disk) (name : String) (read : String → Option α) :
    Prop :=
  ∃ text, engine.stored disk name = .ok (some text) ∧ read text = none

theorem impartial_loadText? (route : Route) : (loadText? disk route).Impartial := by
  unfold loadText?
  split
  next => exact .ok _
  next => exact .ok _
  next => exact .error rfl

theorem stored_of_missed {α β : Type} {read : String → Option α} {finish : Option α → Outcome β}
    {file : String} (limited : ∀ baseline, (finish (some baseline)).OnlyLimited)
    (missed : (do
      let place ← engine.baselinePlace disk name
      let loaded ← (do pure ((← loadText? disk (Location.route place)).bind read))
      finish loaded) = .error (.baselineNotFound file)) :
    ∃ stands, engine.isStored name disk = .ok stands ∧
      (stands = true ↔ engine.Spoilt disk name read) := by
  obtain ⟨place, placed, missed⟩ :=
    (engine.boundary.impartial_validate disk _).exists_of_bind missed rfl
  have impartial : (do pure ((← loadText? disk (Location.route place)).bind read) :
      Outcome (Option α)).Impartial := (impartial_loadText? _).bind fun _ _ => .ok _
  obtain ⟨loaded, found, missed⟩ := impartial.exists_of_bind missed rfl
  obtain ⟨text, stands, same⟩ := bind_eq_ok_iff.1 found
  cases same
  have stored : engine.stored disk name = .ok text := bind_eq_ok_iff.2 ⟨place, placed, stands⟩
  refine ⟨text.isSome, isStored_of_stored stored, ?_⟩
  cases text with
  | none =>
      refine iff_of_false Bool.false_ne_true ?_
      rintro ⟨text, storedToo, _⟩
      cases stored.symm.trans storedToo
  | some text =>
      refine iff_of_true rfl ⟨text, stored, ?_⟩
      cases decoded : read text with
      | none => rfl
      | some baseline =>
          rw [Option.bind_some, decoded] at missed
          cases (limited baseline).impartial _ missed

theorem stored_of_check {file : String}
    (missed : engine.check host = .error (.baselineNotFound file)) :
    ∃ stands, engine.isStored checksumBaselineName host.disk = .ok stands ∧
      (stands = true ↔ engine.Spoilt host.disk checksumBaselineName ChecksumBaseline.ofText?) := by
  unfold check ChecksumBaseline.load at missed
  refine stored_of_missed (fun baseline => ?_) missed
  exact Deadline.onlyLimited_run fun deadline => onlyLimited_snapshot.bind fun _ => .ok _

theorem stored_of_semanticDiff {file : String}
    (missed : engine.semanticDiff host = .error (.baselineNotFound file)) :
    ∃ stands, engine.isStored symbolBaselineName host.disk = .ok stands ∧
      (stands = true ↔ engine.Spoilt host.disk symbolBaselineName SymbolBaseline.ofText?) := by
  unfold semanticDiff SymbolBaseline.load at missed
  refine stored_of_missed (fun baseline => ?_) missed
  exact Deadline.onlyLimited_run fun deadline => onlyLimited_extraction.bind fun _ => .ok _

theorem expectBaselines_absent_iff :
    (∃ file, engine.expectBaselines .absent disk = .error (.baselineExists file)) ↔
      ∃ checksums symbols, engine.isStored checksumBaselineName disk = .ok checksums ∧
        engine.isStored symbolBaselineName disk = .ok symbols ∧
        (checksums = true ∨ symbols = true) := by
  constructor
  · rintro ⟨file, refused⟩
    obtain ⟨checksums, symbols, stored, storedToo, verdict⟩ := exists_of_expectBaselines refused rfl
    refine ⟨checksums, symbols, stored, storedToo, ?_⟩
    cases checksums with
    | true => exact .inl rfl
    | false =>
        cases symbols with
        | true => exact .inr rfl
        | false => cases verdict
  · rintro ⟨checksums, symbols, stored, storedToo, either⟩
    unfold expectBaselines
    rw [stored, storedToo]
    cases checksums with
    | true => exact ⟨_, rfl⟩
    | false =>
        obtain rfl := either.resolve_left Bool.false_ne_true
        exact ⟨_, rfl⟩

/-- Where `check` or `semanticDiff` misses its baseline, `create` without `reset` is refused just if a
file stands for one of them: the one that is missed is spoilt, or the other one is there. With `reset`
it is never refused. -/
theorem create_refused_iff_of_missed {extractor : Extractor} {settings : Settings} {opening : Disk}
    {root : Path} (opened : withSettings extractor settings opening root = .ok engine)
    (checksums : engine.Descends host.disk checksumBaselineName)
    (symbols : engine.Descends host.disk symbolBaselineName) :
    (∀ file, engine.check host = .error (.baselineNotFound file) →
      ((∃ name, (engine.create false host).1 = .error (.baselineExists name)) ↔
        ∃ stands, engine.isStored symbolBaselineName host.disk = .ok stands ∧
          (engine.Spoilt host.disk checksumBaselineName ChecksumBaseline.ofText? ∨
            stands = true))) ∧
      (∀ file, engine.semanticDiff host = .error (.baselineNotFound file) →
        ((∃ name, (engine.create false host).1 = .error (.baselineExists name)) ↔
          ∃ stands, engine.isStored checksumBaselineName host.disk = .ok stands ∧
            (engine.Spoilt host.disk symbolBaselineName SymbolBaseline.ofText? ∨
              stands = true))) ∧
      ∀ name, (engine.create true host).1 ≠ .error (.baselineExists name) := by
  have named := (madeFrom_of_withSettings opened).named
  have refused : (∃ name, (engine.create false host).1 = .error (.baselineExists name)) ↔
      ∃ first second, engine.isStored checksumBaselineName host.disk = .ok first ∧
        engine.isStored symbolBaselineName host.disk = .ok second ∧
        (first = true ∨ second = true) := by
    rw [← expectBaselines_absent_iff]
    exact exists_congr fun name => replaceBaselines_refuses_iff named checksums symbols rfl
  refine ⟨fun file missed => ?_, fun file missed => ?_, fun name failed => ?_⟩
  · obtain ⟨first, stored, spoilt⟩ := stored_of_check missed
    rw [refused, ← spoilt]
    constructor
    · rintro ⟨_, second, storedToo, storedOther, either⟩
      cases stored.symm.trans storedToo
      exact ⟨second, storedOther, either⟩
    · rintro ⟨second, storedOther, either⟩
      exact ⟨first, second, stored, storedOther, either⟩
  · obtain ⟨second, stored, spoilt⟩ := stored_of_semanticDiff missed
    rw [refused, ← spoilt]
    constructor
    · rintro ⟨first, _, storedOther, storedToo, either⟩
      cases stored.symm.trans storedToo
      exact ⟨first, storedOther, either.symm⟩
    · rintro ⟨first, storedOther, either⟩
      exact ⟨first, second, storedOther, stored, either.symm⟩
  · have refusedAtOnce := (replaceBaselines_refuses_iff named checksums symbols rfl).1 failed
    obtain ⟨_, _, _, _, verdict⟩ := exists_of_expectBaselines refusedAtOnce rfl
    cases verdict

/-- A project whose checksum baseline is a text that is none. -/
def spoiltDisk : Disk :=
  memoryDisk "repo-baseline.json" (.file "\x7b not json".toUTF8 0)

theorem create_refused_iff_of_missed_spoilt :
    plainEngine.check (plainHost spoiltDisk) = .error (.baselineNotFound checksumBaselineName) ∧
      (∃ name, (plainEngine.create false (plainHost spoiltDisk)).1 = .error (.baselineExists name)) ∧
      ∀ name, (plainEngine.create true (plainHost spoiltDisk)).1 ≠ .error (.baselineExists name) := by
  have checksums : plainEngine.Descends (plainHost spoiltDisk).disk checksumBaselineName :=
    ⟨plainMemory ++ ["repo-baseline.json"], by decide, by decide, by decide, by decide +kernel,
      by decide +kernel⟩
  have symbols : plainEngine.Descends (plainHost spoiltDisk).disk symbolBaselineName :=
    ⟨plainMemory ++ ["symbol-baseline.json"], by decide, by decide, by decide, by decide +kernel,
      by decide +kernel⟩
  have missed : plainEngine.check (plainHost spoiltDisk) =
      .error (.baselineNotFound checksumBaselineName) := by decide +kernel
  obtain ⟨refused, _, resets⟩ := create_refused_iff_of_missed withSettings_plain checksums symbols
  refine ⟨missed, (refused _ missed).2 ⟨false, by decide +kernel, .inl ?_⟩, resets⟩
  exact ⟨"\x7b not json", by decide +kernel, by decide +kernel⟩

/-- `check` misses its baseline, and `create` is refused because one is there. -/
theorem create_refused_after_check :
    plainEngine.check (plainHost spoiltDisk) = .error (.baselineNotFound checksumBaselineName) ∧
      (plainEngine.create false (plainHost spoiltDisk)).1 =
        .error (.baselineExists checksumBaselineName) := by
  decide +kernel

end Engine

end SourceBaseline
