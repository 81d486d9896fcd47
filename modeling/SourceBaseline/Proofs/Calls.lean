import SourceBaseline.Engine
import SourceBaseline.Proofs.Host

/-!
# Runs call by call

A run takes locks, stages documents, lets them take their places and gives back what it holds, each by
one call. Whoever looks at the disk between two calls, or after a run that was stopped there for good,
comes to see a disk that one of the calls left behind. `Calls` is an action that tells all of these
disks, and each run of a save is such an action.
-/

set_option autoImplicit false

namespace SourceBaseline

/-- An action that also tells the disks that its calls left behind, in their order. -/
def Calls (α : Type) : Type := Host → (Outcome α × Host) × List Disk

namespace Calls

variable {α β : Type}

/-- The action alone. -/
def action (calls : Calls α) : Action α := fun host => (calls host).1

/-- The disks that a reader may come to see: the one before the first call, and those that the calls
left behind. -/
def seen (calls : Calls α) (host : Host) : List Disk :=
  host.disk :: (calls host).2

def call (action : Action α) : Calls α := fun host =>
  (action host, [(action host).2.disk])

def ask (question : Host → Outcome α) : Calls α := fun host =>
  (Action.read question host, [])

instance : Monad Calls where
  pure value := fun host => ((.ok value, host), [])
  bind first next := fun host =>
    match first host with
    | ((.ok value, later), passed) => ((next value later).1, passed ++ (next value later).2)
    | ((.error error, later), passed) => ((.error error, later), passed)

def ensuring (body : Calls α) (cleanup : Calls Unit) : Calls α := fun host =>
  match body host with
  | ((outcome, later), passed) =>
      ((outcome, (cleanup later).1.2), passed ++ (cleanup later).2)

def onError (body : Calls α) (cleanup : Calls Unit) : Calls α := fun host =>
  match body host with
  | ((.ok value, later), passed) => ((.ok value, later), passed)
  | ((.error error, later), passed) =>
      ((.error error, (cleanup later).1.2), passed ++ (cleanup later).2)

/-! ## The action alone -/

theorem action_bind (first : Calls α) (next : α → Calls β) :
    (first >>= next).action = first.action >>= fun value => (next value).action := by
  funext host
  rw [Action.bind_apply]
  simp only [action, bind]
  rcases first host with ⟨⟨outcome, later⟩, passed⟩
  cases outcome <;> rfl

theorem action_ensuring (body : Calls α) (cleanup : Calls Unit) :
    (body.ensuring cleanup).action = body.action.ensuring cleanup.action :=
  rfl

theorem action_onError (body : Calls α) (cleanup : Calls Unit) :
    (body.onError cleanup).action = body.action.onError cleanup.action := by
  funext host
  simp only [action, onError, Action.onError]
  rcases body host with ⟨⟨outcome, later⟩, passed⟩
  cases outcome <;> rfl

/-! ## The disks that are seen -/

theorem seen_bind (first : Calls α) (next : α → Calls β) (host : Host) :
    (first >>= next).seen host =
      match first.action host with
      | (.ok value, later) => first.seen host ++ (next value later).2
      | (.error _, _) => first.seen host := by
  simp only [seen, action, bind]
  rcases first host with ⟨⟨outcome, later⟩, passed⟩
  cases outcome <;> rfl

theorem seen_onError (body : Calls α) (cleanup : Calls Unit) (host : Host) :
    (body.onError cleanup).seen host =
      match body.action host with
      | (.error _, later) => body.seen host ++ (cleanup later).2
      | (.ok _, _) => body.seen host := by
  simp only [seen, action, onError]
  rcases body host with ⟨⟨outcome, later⟩, passed⟩
  cases outcome <;> rfl

/-! ## What holds along a run -/

section Relations

variable {relation : Disk → Disk → Prop} {host : Host}

/-- The disk before is related to every disk that may be seen, and to the one that the run leaves. -/
structure Along (relation : Disk → Disk → Prop) (calls : Calls α) (host : Host) : Prop where
  seen : ∀ disk ∈ calls.seen host, relation host.disk disk
  ends : calls.action.Relates relation host

variable [IsPreorder Disk relation]

theorem along_pure (value : α) : (pure value : Calls α).Along relation host where
  seen disk member := by
    cases List.mem_singleton.1 member
    exact refl_of relation host.disk
  ends := refl_of relation host.disk

theorem along_ask (question : Host → Outcome α) : (ask question).Along relation host where
  seen disk member := by
    cases List.mem_singleton.1 member
    exact refl_of relation host.disk
  ends := refl_of relation host.disk

theorem along_call {action : Action α} (relates : action.Relates relation host) :
    (call action).Along relation host where
  seen disk member := by
    rcases List.mem_cons.1 member with rfl | last
    · exact refl_of relation host.disk
    · cases List.mem_singleton.1 last
      exact relates
  ends := relates

theorem Along.seen_append {body : Calls α} {more : Calls β} {later : Host}
    (begins : body.Along relation host) (ran : (body.action host).2 = later)
    (continues : more.Along relation later) :
    ∀ disk ∈ body.seen host ++ (more later).2, relation host.disk disk := by
  subst ran
  intro disk member
  rcases List.mem_append.1 member with passing | further
  · exact begins.seen disk passing
  · exact trans_of relation begins.ends (continues.seen disk (List.mem_cons_of_mem _ further))

theorem Along.bind {first : Calls α} {next : α → Calls β} (begins : first.Along relation host)
    (continues : ∀ value later, first.action host = (.ok value, later) →
      (next value).Along relation later) :
    (first >>= next).Along relation host := by
  refine ⟨?_, ?_⟩
  · rw [seen_bind]
    split
    next value later ran => exact begins.seen_append (congrArg Prod.snd ran) (continues value later ran)
    next => exact begins.seen
  · rw [action_bind]
    exact begins.ends.bind fun value later ran => (continues value later ran).ends

theorem along_ask_bind {question : Host → Outcome α} {next : α → Calls β}
    (continues : ∀ value, question host = .ok value → (next value).Along relation host) :
    (ask question >>= next).Along relation host := by
  refine (along_ask question).bind ?_
  intro value later answered
  obtain ⟨found, rfl⟩ := Prod.mk.inj answered
  exact continues value found

theorem Along.ensuring {body : Calls α} {cleanup : Calls Unit} (begins : body.Along relation host)
    (cleans : ∀ outcome later, body.action host = (outcome, later) → cleanup.Along relation later) :
    (body.ensuring cleanup).Along relation host := by
  refine ⟨?_, ?_⟩
  · exact begins.seen_append rfl (cleans (body host).1.1 (body host).1.2 rfl)
  · rw [action_ensuring]
    exact begins.ends.ensuring fun outcome later ran => (cleans outcome later ran).ends

theorem Along.onError {body : Calls α} {cleanup : Calls Unit} (begins : body.Along relation host)
    (cleans : ∀ error later, body.action host = (.error error, later) →
      cleanup.Along relation later) :
    (body.onError cleanup).Along relation host := by
  refine ⟨?_, ?_⟩
  · rw [seen_onError]
    split
    next error later ran => exact begins.seen_append (congrArg Prod.snd ran) (cleans error later ran)
    next => exact begins.seen
  · rw [action_onError]
    exact begins.ends.onError fun error later ran => (cleans error later ran).ends

end Relations

end Calls

/-! ## The runs of a save -/

variable {α : Type}

namespace Lock

def holdingCalls (target : Target) (timeout : Nat) (body : Lock → Calls α) : Calls α := do
  let lock ← Calls.call (acquire target timeout)
  Calls.ensuring (body lock) (Calls.call lock.release)

theorem action_holdingCalls {target : Target} {timeout : Nat} (body : Lock → Calls α) :
    (holdingCalls target timeout body).action =
      holding target timeout fun lock => (body lock).action := by
  rw [holdingCalls, Calls.action_bind]
  rfl

end Lock

namespace Document

/-- The calls of `save`. -/
def saveCalls [Document α] (target : Target) (document : α) (timeout : Nat) : Calls α :=
  Lock.holdingCalls target timeout fun lock => do
    let (document, staged) ← Calls.call (stage lock document)
    Calls.call staged.commit
    pure document

theorem action_saveCalls [Document α] (target : Target) (document : α) (timeout : Nat) :
    (saveCalls target document timeout).action = save target document timeout := by
  rw [saveCalls, Lock.action_holdingCalls, save]
  congr 1
  funext lock
  simp only [Calls.action_bind]
  rfl

end Document

namespace Engine

variable (engine : Engine)

def holdingCalls (name : String) (body : Lock → Calls α) : Calls α := do
  let place ← Calls.ask fun host => engine.baselinePlace host.disk name
  Lock.holdingCalls (.located place) engine.settings.lockTimeout body

theorem action_holdingCalls (name : String) (body : Lock → Calls α) :
    (engine.holdingCalls name body).action = engine.holding name fun lock => (body lock).action := by
  rw [holdingCalls, Calls.action_bind]
  simp only [Lock.action_holdingCalls]
  rfl

def replaceBothCalls (checksumLock symbolLock : Lock) (checksums : ChecksumBaseline)
    (symbols : SymbolBaseline) : Calls (ChecksumBaseline × SymbolBaseline) := do
  let (checksums, checksumWrite) ← Calls.call (Document.stage checksumLock checksums)
  let (symbols, symbolWrite) ←
    Calls.onError (Calls.call (Document.stage symbolLock symbols)) (Calls.call checksumWrite.discard)
  Calls.onError (Calls.call checksumWrite.commit) (Calls.call symbolWrite.discard)
  Calls.call symbolWrite.commit
  pure (checksums, symbols)

theorem action_replaceBothCalls (checksumLock symbolLock : Lock) (checksums : ChecksumBaseline)
    (symbols : SymbolBaseline) :
    (replaceBothCalls checksumLock symbolLock checksums symbols).action =
      replaceBoth checksumLock symbolLock checksums symbols := by
  rw [replaceBothCalls]
  simp only [Calls.action_bind, Calls.action_onError]
  rfl

def writeLockedCalls (expectation : Expectation) (checksums : ChecksumBaseline)
    (extraction : Extraction) (checksumLock symbolLock : Lock) : Calls BaselineSummary := do
  Calls.ask fun host => engine.expectBaselines expectation host.disk
  let fresh := SymbolBaseline.fresh (Location.path engine.boundary.root).text extraction.symbols
  let (checksums, symbols) ← replaceBothCalls checksumLock symbolLock checksums fresh
  pure ⟨checksums.fileCount, symbols.symbolCount, extraction.skipped⟩

theorem action_writeLockedCalls (expectation : Expectation) (checksums : ChecksumBaseline)
    (extraction : Extraction) (checksumLock symbolLock : Lock) :
    (engine.writeLockedCalls expectation checksums extraction checksumLock symbolLock).action =
      engine.writeLocked expectation checksums extraction checksumLock symbolLock := by
  rw [writeLockedCalls]
  simp only [Calls.action_bind, action_replaceBothCalls]
  rfl

/-- The calls of `replaceBaselines`, and so of `create` and `update`. -/
def replaceBaselinesCalls (expectation : Expectation) : Calls BaselineSummary := do
  Calls.ask fun host => engine.expectBaselines expectation host.disk
  let (checksums, extraction) ← Calls.ask engine.snapshots
  engine.holdingCalls checksumBaselineName fun checksumLock =>
    engine.holdingCalls symbolBaselineName
      (engine.writeLockedCalls expectation checksums extraction checksumLock)

theorem action_replaceBaselinesCalls (expectation : Expectation) :
    (engine.replaceBaselinesCalls expectation).action = engine.replaceBaselines expectation := by
  rw [replaceBaselinesCalls]
  simp only [Calls.action_bind, action_holdingCalls, action_writeLockedCalls]
  rfl

end Engine

end SourceBaseline
