import Mathlib.Order.Defs.Unbundled
import SourceBaseline.Host
import SourceBaseline.Proofs.Disk.Frame

/-!
# Actions on a host

`Relates` ties the disks before and after an action by a preorder, `StaysBelow` by the one that only
what lies below the root changes. `Matches` says of an action that it comes to the same on two hosts
and leaves them related, `Ignores` that it does so on hosts that differ outside the root alone. All are carried through every way in
which actions are put together, whether they succeed or are given up.
-/

set_option autoImplicit false

namespace SourceBaseline

/-- The hosts differ in nothing but what stands on their disks outside the root. -/
structure Host.Alike (root : Location) (first second : Host) : Prop where
  disk : first.disk.Alike root second.disk
  git : first.git = second.git
  now : first.now = second.now
  holder : first.holder = second.holder
  tokens : first.tokens = second.tokens

/-- The hosts differ in nothing but their disks, which are related. -/
structure Host.Kin (alike : Disk → Disk → Prop) (first second : Host) : Prop where
  disk : alike first.disk second.disk
  git : first.git = second.git
  now : first.now = second.now
  holder : first.holder = second.holder
  tokens : first.tokens = second.tokens

theorem Host.alike_iff_kin {root : Location} {first second : Host} :
    first.Alike root second ↔ first.Kin (Disk.Alike root) second :=
  ⟨fun ⟨disk, git, now, holder, tokens⟩ => ⟨disk, git, now, holder, tokens⟩,
    fun ⟨disk, git, now, holder, tokens⟩ => ⟨disk, git, now, holder, tokens⟩⟩

theorem Host.Kin.withDisks {alike : Disk → Disk → Prop} {first second : Host}
    {firstDisk secondDisk : Disk} (kin : first.Kin alike second) (disks : alike firstDisk secondDisk) :
    Host.Kin alike { first with disk := firstDisk } { second with disk := secondDisk } :=
  ⟨disks, kin.git, kin.now, kin.holder, kin.tokens⟩

namespace Action

variable {α β : Type} {root : Location} {host later : Host}

theorem bind_apply (first : Action α) (next : α → Action β) (host : Host) :
    (first >>= next) host =
      match first host with
      | (.ok value, later) => next value later
      | (.error error, later) => (.error error, later) := by
  simp only [bind, ExceptT.bind, ExceptT.mk, StateT.bind, ExceptT.bindCont]
  cases first host with
  | mk outcome later => cases outcome <;> rfl

/-! ## What an action came to -/

theorem bind_cases {first : Action α} {next : α → Action β} {outcome : Outcome β}
    (ran : (first >>= next) host = (outcome, later)) :
    (∃ error, outcome = .error error ∧ first host = (.error error, later)) ∨
      ∃ middle between, first host = (.ok middle, between) ∧
        next middle between = (outcome, later) := by
  rw [bind_apply] at ran
  cases started : first host with
  | mk result between =>
      rw [started] at ran
      cases result with
      | error error =>
          cases ran
          exact .inl ⟨error, rfl, rfl⟩
      | ok middle => exact .inr ⟨middle, between, rfl, ran⟩

theorem bind_eq_ok_iff {first : Action α} {next : α → Action β} {value : β} :
    (first >>= next) host = (.ok value, later) ↔
      ∃ middle between, first host = (.ok middle, between) ∧
        next middle between = (.ok value, later) := by
  constructor
  · intro ran
    rcases bind_cases ran with ⟨_, ⟨⟩, _⟩ | found
    exact found
  · rintro ⟨middle, between, started, continued⟩
    rw [bind_apply, started]
    exact continued

theorem read_bind_cases {question : Host → Outcome α} {next : α → Action β} {outcome : Outcome β}
    (ran : (read question >>= next) host = (outcome, later)) :
    (∃ error, outcome = .error error ∧ later = host) ∨
      ∃ value, question host = .ok value ∧ next value host = (outcome, later) := by
  rcases bind_cases ran with ⟨error, failed, asked⟩ | ⟨value, between, asked, continued⟩
  · exact .inl ⟨error, failed, (Prod.mk.inj asked).2.symm⟩
  · obtain ⟨found, rfl⟩ := Prod.mk.inj asked
    exact .inr ⟨value, found, continued⟩

theorem change_of_ok {step : Disk → Except Fault Disk} {after : Disk}
    (stepped : step host.disk = .ok after) :
    change step host = (.ok (), { host with disk := after }) := by
  rw [change, stepped]

theorem change_of_error {step : Disk → Except Fault Disk} {fault : Fault}
    (failed : step host.disk = .error fault) : change step host = (.error (.disk fault), host) := by
  rw [change, failed]

theorem eq_of_outcome {action : Action α} {outcome : Outcome α} (came : (action host).1 = outcome) :
    action host = (outcome, (action host).2) :=
  Prod.ext came rfl

theorem eq_of_toOption {action : Action α} {value : α}
    (ran : (action host).1.toOption = some value) : action host = (.ok value, (action host).2) :=
  eq_of_outcome (toOption_eq_some_iff.1 ran)

theorem exists_of_ensuring {body : Action α} {cleanup : Action Unit} {outcome : Outcome α}
    (ran : body.ensuring cleanup host = (outcome, later)) :
    ∃ ended, body host = (outcome, ended) ∧ later = (cleanup ended).2 := by
  unfold ensuring at ran
  cases first : body host with
  | mk result ended =>
      rw [first] at ran
      cases ran
      exact ⟨ended, rfl, rfl⟩

theorem eq_ok_of_onError {body : Action α} {cleanup : Action Unit} {value : α}
    (ran : body.onError cleanup host = (.ok value, later)) : body host = (.ok value, later) := by
  unfold onError at ran
  split at ran
  next same =>
    cases ran
    exact same
  next => cases ran

theorem exists_of_onError {body : Action α} {cleanup : Action Unit} {error : Error}
    (ran : body.onError cleanup host = (.error error, later)) :
    ∃ ended, body host = (.error error, ended) ∧ later = (cleanup ended).2 := by
  unfold onError at ran
  split at ran
  next => cases ran
  next failed =>
    cases ran
    exact ⟨_, failed, rfl⟩

/-! ## The disks before and after -/

section Relations

variable {relation : Disk → Disk → Prop}

/-- The disks before and after the action are related. -/
def Relates (relation : Disk → Disk → Prop) (action : Action α) (host : Host) : Prop :=
  relation host.disk (action host).2.disk

theorem Relates.of_ran {action : Action α} {outcome : Outcome α}
    (relates : action.Relates relation host) (ran : action host = (outcome, later)) :
    relation host.disk later.disk := by
  have related : relation host.disk (action host).2.disk := relates
  rwa [ran] at related

variable [IsPreorder Disk relation]

theorem relates_of_same {action : Action α} (same : (action host).2.disk = host.disk) :
    action.Relates relation host := by
  unfold Relates
  rw [same]
  exact refl_of relation host.disk

theorem relates_change {step : Disk → Except Fault Disk}
    (related : ∀ after, step host.disk = .ok after → relation host.disk after) :
    (change step).Relates relation host := by
  unfold Relates change
  split
  next after stepped => exact related after stepped
  next => exact refl_of relation host.disk

theorem Relates.bind {first : Action α} {next : α → Action β}
    (begins : first.Relates relation host)
    (continues : ∀ value later, first host = (.ok value, later) →
      (next value).Relates relation later) :
    (first >>= next).Relates relation host := by
  unfold Relates
  rw [bind_apply]
  cases ran : first host with
  | mk outcome later =>
      have related := begins.of_ran ran
      cases outcome with
      | error error => exact related
      | ok value => exact trans_of relation related (continues value later ran)

theorem relates_read_bind {question : Host → Outcome α} {next : α → Action β}
    (continues : ∀ value, question host = .ok value → (next value).Relates relation host) :
    (read question >>= next).Relates relation host := by
  refine Relates.bind (relates_of_same rfl) ?_
  intro value later answered
  obtain ⟨found, rfl⟩ := Prod.mk.inj answered
  exact continues value found

theorem Relates.ensuring {body : Action α} {cleanup : Action Unit}
    (begins : body.Relates relation host)
    (ends : ∀ outcome later, body host = (outcome, later) → cleanup.Relates relation later) :
    (body.ensuring cleanup).Relates relation host :=
  trans_of relation begins (ends (body host).1 (body host).2 rfl)

theorem Relates.onError {body : Action α} {cleanup : Action Unit}
    (begins : body.Relates relation host)
    (ends : ∀ error later, body host = (.error error, later) → cleanup.Relates relation later) :
    (body.onError cleanup).Relates relation host := by
  unfold Relates Action.onError
  cases ran : body host with
  | mk outcome later =>
      have related := begins.of_ran ran
      cases outcome with
      | ok value => exact related
      | error error => exact trans_of relation related (ends error later ran)

end Relations

/-! ## Below the root -/

/-- The action changes nothing but what lies strictly below the root. -/
def StaysBelow (root : Location) (action : Action α) (host : Host) : Prop :=
  Disk.ChangesBelow root host.disk (action host).2.disk

instance (root : Location) : IsPreorder Disk (Disk.ChangesBelow root) where
  refl := .refl root
  trans _ _ _ := .trans

theorem StaysBelow.changesBelow {action : Action α} {outcome : Outcome α}
    (stays : action.StaysBelow root host) (ran : action host = (outcome, later)) :
    Disk.ChangesBelow root host.disk later.disk :=
  Relates.of_ran stays ran

theorem stays_pure (value : α) : (pure value : Action α).StaysBelow root host :=
  relates_of_same rfl

theorem stays_freshToken : freshToken.StaysBelow root host :=
  relates_of_same rfl

theorem stays_change {step : Disk → Except Fault Disk}
    (below : ∀ after, step host.disk = .ok after → Disk.ChangesBelow root host.disk after) :
    (change step).StaysBelow root host :=
  relates_change below

theorem StaysBelow.bind {first : Action α} {next : α → Action β}
    (begins : first.StaysBelow root host)
    (continues : ∀ value later, first host = (.ok value, later) →
      (next value).StaysBelow root later) :
    (first >>= next).StaysBelow root host :=
  Relates.bind begins continues

theorem stays_read_bind {question : Host → Outcome α} {next : α → Action β}
    (continues : ∀ value, question host = .ok value → (next value).StaysBelow root host) :
    (read question >>= next).StaysBelow root host :=
  relates_read_bind continues

theorem StaysBelow.ensuring {body : Action α} {cleanup : Action Unit}
    (begins : body.StaysBelow root host)
    (ends : ∀ outcome later, body host = (outcome, later) → cleanup.StaysBelow root later) :
    (body.ensuring cleanup).StaysBelow root host :=
  Relates.ensuring begins ends

theorem StaysBelow.onError {body : Action α} {cleanup : Action Unit}
    (begins : body.StaysBelow root host)
    (ends : ∀ error later, body host = (.error error, later) → cleanup.StaysBelow root later) :
    (body.onError cleanup).StaysBelow root host :=
  Relates.onError begins ends

/-! ## Two hosts -/

/-- The action has the same result on both hosts and leaves them alike. -/
def Ignores (root : Location) (action : Action α) (first second : Host) : Prop :=
  (action first).1 = (action second).1 ∧ (action first).2.Alike root (action second).2

/-- The action has the same result on both hosts and leaves them related. -/
def Matches (relation : Host → Host → Prop) (action : Action α) (first second : Host) : Prop :=
  (action first).1 = (action second).1 ∧ relation (action first).2 (action second).2

theorem ignores_of_matches {action : Action α} {first second : Host}
    (matched : action.Matches (Host.Kin (Disk.Alike root)) first second) :
    action.Ignores root first second :=
  ⟨matched.1, Host.alike_iff_kin.2 matched.2⟩

variable {relation : Host → Host → Prop} {alike : Disk → Disk → Prop} {first second : Host}

theorem matches_pure (related : relation first second) (value : α) :
    (pure value : Action α).Matches relation first second :=
  ⟨rfl, related⟩

theorem matches_freshToken (kin : first.Kin alike second) :
    freshToken.Matches (Host.Kin alike) first second := by
  refine ⟨?_, ⟨kin.disk, kin.git, kin.now, kin.holder, ?_⟩⟩
  · unfold freshToken
    rw [kin.holder, kin.tokens]
  · unfold freshToken
    rw [kin.tokens]

theorem matches_change {step : Disk → Except Fault Disk} (kin : first.Kin alike second)
    (stepped : Disk.After alike (step first.disk) (step second.disk)) :
    (change step).Matches (Host.Kin alike) first second := by
  unfold Matches change
  rcases stepped.outcomes with ⟨after, other, made, otherMade, alikeThen⟩ | ⟨fault, failed, otherFailed⟩
  · rw [made, otherMade]
    exact ⟨rfl, kin.withDisks alikeThen⟩
  · rw [failed, otherFailed]
    exact ⟨rfl, kin⟩

theorem matches_ensureDirectory {directory : Location} (parallel : Disk.Parallel alike directory)
    (kin : first.Kin alike second) (free : first.disk.LinkFree directory) :
    (ensureDirectory ((Location.ancestors directory).map Location.route)).Matches (Host.Kin alike)
      first second := by
  obtain ⟨same, alikeThen⟩ := parallel.ensures kin.disk free
  refine ⟨?_, kin.withDisks alikeThen⟩
  unfold ensureDirectory
  dsimp only
  rw [same]

theorem Matches.outcomes {action : Action α} (matched : action.Matches relation first second) :
    ∃ outcome later other, action first = (outcome, later) ∧ action second = (outcome, other) ∧
      relation later other :=
  ⟨(action first).1, (action first).2, (action second).2, rfl, Prod.ext matched.1.symm rfl,
    matched.2⟩

theorem Matches.bind {action : Action α} {next : α → Action β}
    (begins : action.Matches relation first second)
    (continues : ∀ value later other, action first = (.ok value, later) →
      action second = (.ok value, other) → relation later other →
      (next value).Matches relation later other) :
    (action >>= next).Matches relation first second := by
  obtain ⟨outcome, later, other, ran, ranToo, related⟩ := begins.outcomes
  unfold Matches
  rw [bind_apply, bind_apply, ran, ranToo]
  cases outcome with
  | error error => exact ⟨rfl, related⟩
  | ok value => exact continues value later other ran ranToo related

theorem matches_read_bind {question : Host → Outcome α} {next : α → Action β}
    (related : relation first second) (same : question first = question second)
    (continues : ∀ value, question first = .ok value → (next value).Matches relation first second) :
    (read question >>= next).Matches relation first second := by
  refine Matches.bind ⟨same, related⟩ ?_
  intro value later other answered answeredToo _
  obtain ⟨found, rfl⟩ := Prod.mk.inj answered
  obtain ⟨_, rfl⟩ := Prod.mk.inj answeredToo
  exact continues value found

theorem Matches.ensuring {body : Action α} {cleanup : Action Unit}
    (begins : body.Matches relation first second)
    (ends : relation (body first).2 (body second).2 →
      cleanup.Matches relation (body first).2 (body second).2) :
    (body.ensuring cleanup).Matches relation first second := by
  obtain ⟨same, related⟩ := begins
  exact ⟨same, (ends related).2⟩

theorem Matches.onError {body : Action α} {cleanup : Action Unit}
    (begins : body.Matches relation first second)
    (ends : ∀ error later other, body first = (.error error, later) →
      body second = (.error error, other) → relation later other →
      cleanup.Matches relation later other) :
    (body.onError cleanup).Matches relation first second := by
  obtain ⟨outcome, later, other, ran, ranToo, related⟩ := begins.outcomes
  unfold Matches Action.onError
  rw [ran, ranToo]
  cases outcome with
  | ok value => exact ⟨rfl, related⟩
  | error error => exact ⟨rfl, (ends error later other ran ranToo related).2⟩

end Action

end SourceBaseline
