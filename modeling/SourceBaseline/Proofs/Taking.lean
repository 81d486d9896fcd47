import SourceBaseline.Proofs.Spared
import SourceBaseline.Proofs.Steps

/-!
# What is taken away

A lock that may be stale is set aside and removed, and a document takes the place of what stood
there. Everything else that stands goes on standing, whatever its name, because locks, directories
and temporary files are only put where nothing stands.
-/

set_option autoImplicit false

namespace SourceBaseline

variable {location : Location} {entry : Entry} {host later : Host} {disk after : Disk}
  {target : Target} {timeout : Nat}

/-- Something stands there that is no fresh file, so that as a lock it may be broken. -/
def Lock.MayBreak (disk : Disk) (location : Location) : Prop :=
  ∃ entry, disk.find? location = some entry ∧
    ∀ content age, entry = .file content age → staleAge ≤ age

namespace Target

/-- What stands there may be overwritten or removed when the target is locked and written: it is the
target, or its lock if that may be broken, or then what stands where the lock is set aside. -/
inductive Takes (target : Target) (host : Host) : Location → Prop where
  | own {place : Location} : target = .located place → Takes target host place
  | lock {place : Location} :
      target.lock = .located place → Lock.MayBreak host.disk place → Takes target host place
  | grave {place aside : Location} :
      target.lock = .located place → Lock.MayBreak host.disk place →
      Lock.grave target.lock (host.holder.text ++ "-" ++ toString host.tokens) = .located aside →
      Takes target host aside

theorem Sheltered.directories_lock {root : Location} (sheltered : target.Sheltered root disk) :
    target.lock.directories = target.directories := by
  obtain ⟨directory, name, rfl, _⟩ := sheltered
  rw [lock_located, directories_located, directories_located]

theorem Sheltered.leaves_ensureDirectory (sheltered : target.Sheltered [] host.disk)
    (stands : host.disk.find? location = some entry) :
    (Action.ensureDirectory target.directories).Relates (Disk.Leaves location) host := by
  refine ⟨?_, sheltered.stays_ensureDirectory⟩
  obtain ⟨directory, name, rfl, _, shelters⟩ := sheltered
  rw [directories_located]
  rcases Disk.grows_of_ensureDirectory shelters.named shelters.free location with
    same | ⟨_, missing, _⟩
  · exact same
  · cases stands.symm.trans missing

end Target

namespace Lock

theorem mayBreak_of_breakStale {holder : Holder} {number : Nat} (sheltered : target.Sheltered [] disk)
    (broken : breakStale target.lock (holder.text ++ "-" ++ toString number) disk = some after) :
    ∃ place, target.lock = .located place ∧ MayBreak disk place := by
  obtain ⟨directory, name, rfl, isName, shelters⟩ := sheltered
  rw [Target.lock_located] at broken ⊢
  refine ⟨_, rfl, ?_⟩
  rw [breakStale, Target.grave_located] at broken
  split at broken
  next text moved stale renamed =>
    have lockIsName := isName_lock isName
    obtain ⟨entry, stands, _⟩ :=
      shelters.find?_of_rename lockIsName (isName_grave lockIsName holder number) renamed
    refine ⟨entry, stands, ?_⟩
    rintro content age rfl
    unfold staleText? at stale
    split at stale
    next other otherAge found =>
      have free := shelters.free.concat fun _ link => by cases stands.symm.trans link
      have seen := Disk.find?_of_inspect (shelters.named_concat lockIsName) free found
      cases stands.symm.trans seen
      split at stale
      next old => exact old
      next => cases stale
    next => cases stale
  next => cases broken

/-- The file of a lock comes to stand where nothing stood or where a lock was broken. -/
theorem leaves_take_of_stands {holder : Holder} {number : Nat} (sheltered : target.Sheltered [] disk)
    (stands : disk.find? location = some entry)
    (untaken : ∀ place, target.lock = .located place → MayBreak disk place → place ≠ location ∧
      grave target.lock (holder.text ++ "-" ++ toString number) ≠ .located location)
    (taken : take target.lock (holder.text ++ "-" ++ toString number) timeout disk = .ok after) :
    disk.Leaves location after ∧ target.lock ≠ .located location := by
  obtain ⟨before, start, created⟩ := exists_of_take taken
  have first : disk.Leaves location before := by
    rcases start with rfl | broken
    · exact refl_of (Disk.Leaves location) before
    · obtain ⟨place, located, mayBreak⟩ := mayBreak_of_breakStale sheltered broken
      obtain ⟨notLock, notGrave⟩ := untaken place located mayBreak
      apply leaves_breakStale sheltered ?_ notGrave broken
      rw [located]
      rintro ⟨⟩
      exact notLock rfl
  have shelteredThen := sheltered.later first.changes
  have elsewhere : target.lock ≠ .located location := by
    intro same
    obtain ⟨directory, name, rfl, isName, shelters⟩ := shelteredThen
    rw [Target.lock_located] at same created
    cases same
    obtain ⟨absent, _⟩ := Disk.becomes_of_createFile (shelters.named_concat (isName_lock isName))
      shelters.free created
    cases (first.same.trans stands).symm.trans absent
  exact ⟨trans_of (Disk.Leaves location) first (leaves_createFile shelteredThen elsewhere created),
    elsewhere⟩

theorem leaves_acquire_of_stands {outcome : Outcome Lock} (sheltered : target.Sheltered [] host.disk)
    (stands : host.disk.find? location = some entry) (untaken : ¬ target.Takes host location)
    (ran : acquire target timeout host = (outcome, later)) :
    host.disk.Leaves location later.disk ∧
      ∀ lock, outcome = .ok lock → target.lock ≠ .located location := by
  have made := sheltered.leaves_ensureDirectory stands
  rw [acquire, sheltered.directories_lock] at ran
  rcases Action.bind_cases ran with ⟨_, rfl, failed⟩ | ⟨_, ready, ensured, ran⟩
  · exact ⟨made.of_ran failed, fun _ impossible => by cases impossible⟩
  have leaves := made.of_ran ensured
  obtain ⟨_, readied⟩ := Prod.mk.inj ensured
  -- The directories that are made end above the lock, so whether it may be broken is as before.
  have sameLock : ∀ place, target.lock = .located place →
      ready.disk.find? place = host.disk.find? place := by
    intro place located
    obtain ⟨directory, name, rfl, _, shelters⟩ := sheltered
    rw [Target.lock_located] at located
    cases located
    rw [← readied, Target.directories_located]
    rcases Disk.grows_of_ensureDirectory shelters.named shelters.free
      (directory ++ [name ++ ".lock"]) with same | ⟨within, _⟩
    · exact same
    · have shorter := within.length_le
      rw [List.length_append, List.length_singleton] at shorter
      omega
  rcases Action.bind_cases ran with ⟨_, rfl, ⟨⟩⟩ | ⟨token, counted, given, ran⟩
  cases given
  dsimp only at ran
  split at ran
  next disk taken =>
    cases ran
    have taking := leaves_take_of_stands (sheltered.later leaves.changes) (leaves.same.trans stands)
      (fun place located mayBreak => ?_) taken
    · exact ⟨trans_of (Disk.Leaves location) leaves taking.1, fun _ _ => taking.2⟩
    rw [MayBreak, sameLock place located] at mayBreak
    refine ⟨?_, ?_⟩
    · rintro rfl
      exact untaken (.lock located mayBreak)
    · intro aside
      rw [← readied] at aside
      exact untaken (.grave located mayBreak aside)
  next =>
    cases ran
    exact ⟨leaves, fun _ impossible => by cases impossible⟩

end Lock

namespace StagedWrite

variable {content : ByteArray}

theorem leaves_stage_of_stands {outcome : Outcome StagedWrite}
    (sheltered : target.Sheltered [] host.disk) (stands : host.disk.find? location = some entry)
    (ran : stage target content host = (outcome, later)) :
    host.disk.Leaves location later.disk ∧
      ∀ staged, outcome = .ok staged → staged.temporary ≠ .located location := by
  have made := sheltered.leaves_ensureDirectory stands
  rw [stage] at ran
  rcases Action.bind_cases ran with ⟨_, rfl, failed⟩ | ⟨_, ready, ensured, ran⟩
  · exact ⟨made.of_ran failed, fun _ impossible => by cases impossible⟩
  have leaves := made.of_ran ensured
  split at ran
  next staged disk written =>
    cases ran
    have changes := (pending_of_writeTemporary (sheltered.later leaves.changes) written).1
    obtain ⟨directory, name, rfl, _, shelters⟩ := sheltered.later leaves.changes
    obtain ⟨number, _, temporary, created⟩ := exists_of_writeTemporary written
    obtain ⟨absent, becomes⟩ := Disk.becomes_of_createFile
      (shelters.named_concat (isName_temporaryName number)) shelters.free created
    have elsewhere : location ≠ directory ++ [temporaryName number] := by
      rintro rfl
      cases (leaves.same.trans stands).symm.trans absent
    refine ⟨trans_of (Disk.Leaves location) leaves
      ⟨(becomes location).trans (if_neg elsewhere), changes⟩, ?_⟩
    rintro _ ⟨⟩
    rw [temporary]
    rintro ⟨⟩
    exact elsewhere rfl
  next =>
    cases ran
    exact ⟨leaves, fun _ impossible => by cases impossible⟩

end StagedWrite

theorem Document.leaves_stage_of_stands {α : Type} [Document α] {lock : Lock} {document : α}
    {outcome : Outcome (α × StagedWrite)} (sheltered : lock.target.Sheltered [] host.disk)
    (stands : host.disk.find? location = some entry)
    (ran : stage lock document host = (outcome, later)) :
    host.disk.Leaves location later.disk ∧
      ∀ kept staged, outcome = .ok (kept, staged) → staged.temporary ≠ .located location := by
  rw [stage_apply] at ran
  rcases Action.bind_cases ran with ⟨_, rfl, failed⟩ | ⟨staged, ready, wrote, finished⟩
  · exact ⟨(StagedWrite.leaves_stage_of_stands sheltered stands failed).1,
      fun _ _ impossible => by cases impossible⟩
  · cases finished
    obtain ⟨leaves, unused⟩ := StagedWrite.leaves_stage_of_stands sheltered stands wrote
    refine ⟨leaves, ?_⟩
    rintro _ _ ⟨⟩
    exact unused staged rfl

end SourceBaseline
