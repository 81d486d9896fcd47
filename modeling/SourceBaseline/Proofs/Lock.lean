import SourceBaseline.Proofs.Target

/-!
# Locks below the root

Taking the lock of a sheltered target, breaking a stale one and giving a lock back change nothing
but what lies below the root.
-/

set_option autoImplicit false

namespace SourceBaseline.Lock

variable {root : Location} {host later : Host} {disk after : Disk} {target : Target} {timeout : Nat}

theorem changesBelow_breakStale {holder : Holder} {number : Nat}
    (sheltered : target.Sheltered root disk)
    (broken : breakStale target (holder.text ++ "-" ++ toString number) disk = some after) :
    Disk.ChangesBelow root disk after := by
  obtain ⟨directory, name, rfl, isName, shelters⟩ := sheltered
  rw [breakStale, Target.grave_located] at broken
  split at broken
  next text moved stale renamed =>
    apply shelters.changesBelow_rename_removeFile isName (isName_grave isName holder number) renamed
    exact toOption_eq_some_iff.1 broken
  next => cases broken

theorem exists_of_take {file : Target} {token : String}
    (taken : take file token timeout disk = .ok after) :
    ∃ before, (before = disk ∨ breakStale file token disk = some before) ∧
      before.createFile file.route token.toUTF8 = .ok after := by
  rw [take] at taken
  split at taken
  next created =>
    cases taken
    exact ⟨disk, .inl rfl, created⟩
  next =>
    split at taken
    next cleared broken => exact ⟨cleared, .inr broken, Outcome.ofDisk_eq_ok_iff.1 taken⟩
    next => cases taken
  next => cases taken

theorem changesBelow_take {holder : Holder} {number : Nat} (sheltered : target.Sheltered root disk)
    (taken : take target (holder.text ++ "-" ++ toString number) timeout disk = .ok after) :
    Disk.ChangesBelow root disk after := by
  obtain ⟨before, start, created⟩ := exists_of_take taken
  have first : Disk.ChangesBelow root disk before := by
    rcases start with rfl | broken
    · exact .refl root before
    · exact changesBelow_breakStale sheltered broken
  refine first.trans ?_
  obtain ⟨directory, name, rfl, isName, shelters⟩ := sheltered.later first
  exact shelters.changesBelow_createFile isName created

theorem exists_of_acquire {lock : Lock}
    (acquired : acquire target timeout host = (.ok lock, later)) :
    ∃ ready taken, host.disk.ensureDirectory target.lock.directories = (.ok (), ready) ∧
      lock = ⟨target, host.holder.text ++ "-" ++ toString host.tokens⟩ ∧
      take target.lock lock.token timeout ready = .ok taken ∧
      later = { host with disk := taken, tokens := host.tokens + 1 } := by
  rw [acquire, Action.bind_apply] at acquired
  split at acquired
  next _ ready made =>
    obtain ⟨ensured, rfl⟩ := Prod.mk.inj made
    rw [Outcome.ofDisk_eq_ok_iff] at ensured
    rw [Action.bind_apply] at acquired
    dsimp only [Action.freshToken] at acquired
    split at acquired
    next disk taken =>
      cases acquired
      exact ⟨_, disk, Prod.ext ensured rfl, rfl, taken, rfl⟩
    next => cases acquired
  next => cases acquired

theorem target_of_acquire {lock : Lock}
    (acquired : acquire target timeout host = (.ok lock, later)) : lock.target = target := by
  obtain ⟨_, _, _, rfl, _⟩ := exists_of_acquire acquired
  rfl

theorem now_of_acquire {lock : Lock} (acquired : acquire target timeout host = (.ok lock, later)) :
    later.now = host.now := by
  obtain ⟨_, _, _, _, _, same⟩ := exists_of_acquire acquired
  rw [same]

theorem stays_acquire (sheltered : target.Sheltered root host.disk) :
    (acquire target timeout).StaysBelow root host := by
  have ensured : (Action.ensureDirectory target.lock.directories).StaysBelow root host :=
    sheltered.lock.stays_ensureDirectory
  refine ensured.bind ?_
  intro _ ready made
  have shelteredThen := sheltered.later (ensured.changesBelow made)
  refine Action.stays_freshToken.bind ?_
  intro token counted given
  cases given
  unfold Action.StaysBelow
  dsimp only
  split
  next after taken => exact changesBelow_take shelteredThen.lock taken
  next => exact .refl root ready.disk

theorem drop_cases (lock : Lock) (disk : Disk) :
    lock.drop disk = disk ∨
      disk.readText lock.target.lock.route = .ok lock.token ∧
        disk.removeFile lock.target.lock.route = .ok (lock.drop disk) := by
  unfold drop
  split
  next held =>
    cases disk.removeFile lock.target.lock.route with
    | error fault => exact .inl rfl
    | ok cleared =>
        refine .inr ⟨?_, rfl⟩
        rw [isHeld] at held
        split at held
        next text read => rw [read, of_decide_eq_true held]
        next => cases held
  next => exact .inl rfl

theorem changesBelow_drop {lock : Lock} (sheltered : lock.target.Sheltered root disk) :
    Disk.ChangesBelow root disk (lock.drop disk) := by
  rcases lock.drop_cases disk with same | ⟨_, removed⟩
  · rw [same]
    exact .refl root disk
  · obtain ⟨directory, name, located, isName, shelters⟩ := sheltered.lock
    rw [located] at removed
    exact shelters.changesBelow_removeFile isName removed

theorem stays_release {lock : Lock} (sheltered : lock.target.Sheltered root host.disk) :
    lock.release.StaysBelow root host :=
  changesBelow_drop sheltered

/-- An action that stays below the root while the lock is held does so with the lock around it. -/
theorem stays_holding {α : Type} {body : Lock → Action α} (sheltered : target.Sheltered root host.disk)
    (stays : ∀ lock later, acquire target timeout host = (.ok lock, later) →
      (body lock).StaysBelow root later) :
    (holding target timeout body).StaysBelow root host := by
  refine (stays_acquire sheltered).bind ?_
  intro lock taken acquired
  have changes := (stays_acquire sheltered).changesBelow acquired
  refine (stays lock taken acquired).ensuring ?_
  intro outcome later ran
  apply stays_release
  rw [target_of_acquire acquired]
  exact (sheltered.later changes).later ((stays lock taken acquired).changesBelow ran)

theorem holding_cases {α : Type} {body : Lock → Action α} {outcome : Outcome α}
    (ran : holding target timeout body host = (outcome, later)) :
    (∃ error, outcome = .error error ∧ acquire target timeout host = (.error error, later)) ∨
      ∃ lock locked ended, acquire target timeout host = (.ok lock, locked) ∧
        body lock locked = (outcome, ended) ∧
        later = { ended with disk := lock.drop ended.disk } := by
  rcases Action.bind_cases ran with refused | ⟨lock, locked, acquired, held⟩
  · exact .inl refused
  · obtain ⟨ended, worked, same⟩ := Action.exists_of_ensuring held
    exact .inr ⟨lock, locked, ended, acquired, worked, same⟩

/-! ## Two hosts -/

section Matching

variable {alike : Disk → Disk → Prop} {first second : Host} {firstDisk secondDisk : Disk}

section Taking

variable {directory : Location} {name : String} (holder : Holder) (number : Nat) (isName : IsName name)
  (shelters : firstDisk.Shelters root directory) (free : firstDisk.LinkFree (directory ++ [name]))
  (parallel : Disk.Parallel alike directory) (related : alike firstDisk secondDisk)

include isName shelters free parallel related

theorem breakStale_parallel :
    let broken := breakStale (.located (directory ++ [name])) (holder.text ++ "-" ++ toString number)
    (broken firstDisk = none ∧ broken secondDisk = none) ∨
      ∃ after other, broken firstDisk = some after ∧ broken secondDisk = some other ∧
        alike after other := by
  have graveIsName := isName_grave isName holder number
  have stale : staleText? firstDisk (Target.located (directory ++ [name])).route =
      staleText? secondDisk (Target.located (directory ++ [name])).route := by
    unfold staleText?
    rw [Target.route, parallel.inspects related isName free]
  have renamed := parallel.renames related isName graveIsName shelters.free
  dsimp only
  unfold breakStale
  rw [stale, Target.grave_located]
  cases staleText? secondDisk (Target.located (directory ++ [name])).route with
  | none => exact .inl ⟨rfl, rfl⟩
  | some text =>
      dsimp only [Target.route]
      rcases renamed.outcomes with
        ⟨moved, otherMoved, renames, otherRenames, relatedThen⟩ | ⟨fault, failed, otherFailed⟩
      · rw [renames, otherRenames]
        dsimp only
        have freeThen := shelters.linkFree_of_rename isName graveIsName renames
        rcases (parallel.removes relatedThen graveIsName freeThen).outcomes with
          ⟨cleared, otherCleared, removes, otherRemoves, relatedLast⟩ | ⟨fault, failed, otherFailed⟩
        · rw [removes, otherRemoves]
          exact .inr ⟨cleared, otherCleared, rfl, rfl, relatedLast⟩
        · rw [failed, otherFailed]
          exact .inl ⟨rfl, rfl⟩
      · rw [failed, otherFailed]
        exact .inl ⟨rfl, rfl⟩

theorem take_parallel (timeout : Nat) :
    let token := holder.text ++ "-" ++ toString number
    Disk.After alike (take (.located (directory ++ [name])) token timeout firstDisk)
      (take (.located (directory ++ [name])) token timeout secondDisk) := by
  dsimp only
  unfold take
  dsimp only [Target.route]
  rcases (parallel.creates _ related isName shelters.free).outcomes with
    ⟨made, otherMade, created, otherCreated, relatedThen⟩ | ⟨fault, failed, otherFailed⟩
  · rw [created, otherCreated]
    exact .changed relatedThen
  · rw [failed, otherFailed]
    split
    next impossible => cases impossible
    next =>
      have sheltered : Target.Sheltered (.located (directory ++ [name])) root firstDisk :=
        ⟨directory, name, rfl, isName, shelters⟩
      rcases breakStale_parallel holder number isName shelters free parallel related with
        ⟨whole, otherWhole⟩ | ⟨broken, otherBroken, breaks, otherBreaks, relatedThen⟩
      · rw [whole, otherWhole]
        exact .failed
      · rw [breaks, otherBreaks]
        have sheltersThen := (changesBelow_breakStale sheltered breaks).shelters shelters
        dsimp only
        rcases (parallel.creates _ relatedThen isName sheltersThen.free).outcomes with
          ⟨made, otherMade, created, otherCreated, relatedLast⟩ | ⟨fault, failed, otherFailed⟩
        · rw [created, otherCreated]
          exact .changed relatedLast
        · rw [failed, otherFailed]
          exact .failed
    next => exact .failed

end Taking

theorem matches_acquire (isolated : target.Isolated root first.disk)
    (parallel : target.Parallel alike) (kin : first.Kin alike second) :
    (acquire target timeout).Matches (Host.Kin alike) first second := by
  have sameDirectories : target.lock.directories = target.directories := by
    obtain ⟨directory, name, rfl, _⟩ := isolated
    rw [Target.lock_located, Target.directories_located, Target.directories_located]
  unfold acquire
  rw [sameDirectories]
  refine (isolated.matches_ensureDirectory parallel kin).bind ?_
  intro _ ready readyToo made _ kinReady
  have isolatedThen := isolated.later (isolated.sheltered.stays_ensureDirectory.changesBelow made)
  refine (Action.matches_freshToken kinReady).bind ?_
  intro token counted countedToo given _ kinCounted
  cases given
  obtain ⟨directory, name, rfl, isName, shelters, _, lockFree⟩ := isolatedThen
  have taken := take_parallel ready.holder ready.tokens (isName_lock isName) shelters lockFree
    (parallel directory name rfl) kinCounted.disk timeout
  rw [Target.lock_located]
  unfold Action.Matches
  dsimp only
  rcases taken.outcomes with
    ⟨made, otherMade, created, otherCreated, relatedThen⟩ | ⟨fault, failed, otherFailed⟩
  · rw [created, otherCreated]
    exact ⟨rfl, kinCounted.withDisks relatedThen⟩
  · rw [failed, otherFailed]
    exact ⟨rfl, kinCounted⟩

theorem matches_release {lock : Lock} (isolated : lock.target.Isolated root first.disk)
    (parallel : lock.target.Parallel alike) (kin : first.Kin alike second) :
    lock.release.Matches (Host.Kin alike) first second := by
  obtain ⟨directory, name, located, isName, shelters, _, lockFree⟩ := isolated
  have beside := parallel directory name located
  have held : lock.isHeld first.disk = lock.isHeld second.disk := by
    unfold isHeld Disk.readText Disk.read
    rw [located, Target.lock_located, Target.route,
      beside.inspects kin.disk (isName_lock isName) lockFree]
  apply Action.matches_change kin
  unfold drop
  rw [held, located, Target.lock_located]
  split
  next =>
    dsimp only [Target.route]
    rcases (beside.removes kin.disk (isName_lock isName) shelters.free).outcomes with
      ⟨cleared, otherCleared, removes, otherRemoves, relatedThen⟩ | ⟨fault, failed, otherFailed⟩
    · rw [removes, otherRemoves]
      exact .changed relatedThen
    · rw [failed, otherFailed]
      exact .changed kin.disk
  next => exact .changed kin.disk

/-- An action that comes to the same on both hosts while the lock is held does so with the lock
around it. -/
theorem matches_holding {α : Type} {body : Lock → Action α}
    (isolated : target.Isolated root first.disk) (parallel : target.Parallel alike)
    (kin : first.Kin alike second)
    (stays : ∀ lock later, acquire target timeout first = (.ok lock, later) →
      (body lock).StaysBelow root later)
    (matched : ∀ lock later other, acquire target timeout first = (.ok lock, later) →
      acquire target timeout second = (.ok lock, other) → later.Kin alike other →
      (body lock).Matches (Host.Kin alike) later other) :
    (holding target timeout body).Matches (Host.Kin alike) first second := by
  refine (matches_acquire isolated parallel kin).bind ?_
  intro lock taken takenToo acquired acquiredToo kinTaken
  have isolatedThen := isolated.later ((stays_acquire isolated.sheltered).changesBelow acquired)
  have same := target_of_acquire acquired
  refine (matched lock taken takenToo acquired acquiredToo kinTaken).ensuring ?_
  intro kinEnd
  have isolatedEnd : lock.target.Isolated root (body lock taken).2.disk := by
    rw [same]
    exact isolatedThen.later ((stays lock taken acquired).changesBelow rfl)
  exact matches_release isolatedEnd (same ▸ parallel) kinEnd

end Matching

end SourceBaseline.Lock
