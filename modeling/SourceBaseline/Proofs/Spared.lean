import SourceBaseline.Proofs.Disk.Fitting
import SourceBaseline.Proofs.Lock
import SourceBaseline.Proofs.Staging

/-!
# Locations that are left alone

To lock a document and to replace it, files are put beside it, and directories on the way to it
where nothing stood. A location that is neither is left alone by every step but the one in which a
staged write takes its place.
-/

set_option autoImplicit false

namespace SourceBaseline

/-- The location stands beside the place under a name that begins like that of its lock or of a
temporary file. -/
def Attends (location place : Location) : Prop :=
  ∃ directory name other, place = directory ++ [name] ∧ location = directory ++ [other] ∧
    ((name ++ ".lock").toList <+: other.toList ∨ ".tmp".toList <+: other.toList)

theorem attends_concat_iff {directory : Location} {name other : String} :
    Attends (directory ++ [other]) (directory ++ [name]) ↔
      (name ++ ".lock").toList <+: other.toList ∨ ".tmp".toList <+: other.toList := by
  constructor
  · rintro ⟨above, first, second, same, sameToo, starts⟩
    obtain ⟨rfl, rfl⟩ : directory = above ∧ name = first := by simpa using same
    obtain rfl : other = second := by simpa using sameToo
    exact starts
  · exact fun starts => ⟨directory, name, other, rfl, rfl, starts⟩

section Beside

variable {location directory : Location} {name : String}
  (apart : ¬ Attends location (directory ++ [name]))

include apart

theorem ne_lock : location ≠ directory ++ [name ++ ".lock"] :=
  fun same => apart ⟨directory, name, _, rfl, same, .inl List.prefix_rfl⟩

theorem ne_grave (token : String) :
    location ≠ directory ++ [name ++ ".lock" ++ ".stale-" ++ token] := by
  intro same
  refine apart ⟨directory, name, _, rfl, same, .inl ?_⟩
  simp only [String.toList_append, List.append_assoc]
  exact List.prefix_append_right_inj _ |>.2 (List.prefix_append _ _)

theorem ne_temporary (number : Nat) :
    location ≠ directory ++ [StagedWrite.temporaryName number] :=
  fun same => apart ⟨directory, name, _, rfl, same, .inr ⟨_, String.toList_append.symm⟩⟩

end Beside

variable {location : Location} {host : Host} {disk after : Disk} {target : Target} {timeout : Nat}

/-- What stands at the location is as before, and no link is new. -/
structure Disk.Leaves (location : Location) (before after : Disk) : Prop where
  same : after.find? location = before.find? location
  changes : Disk.ChangesBelow [] before after

instance (location : Location) : IsPreorder Disk (Disk.Leaves location) where
  refl disk := ⟨rfl, .refl [] disk⟩
  trans _ _ _ first second := ⟨second.same.trans first.same, first.changes.trans second.changes⟩

namespace Target

/-- The directory of the target lies behind no link, and the location is neither a file that is put
beside the target nor a directory that is made on the way to it. -/
def Spares (target : Target) (location : Location) (disk : Disk) : Prop :=
  ∃ directory name, target = .located (directory ++ [name]) ∧ IsName name ∧
    disk.Shelters [] directory ∧ ¬ Attends location (directory ++ [name]) ∧
    (disk.find? location = none → ¬ location <+: directory)

theorem Spares.sheltered (spares : target.Spares location disk) : target.Sheltered [] disk := by
  obtain ⟨directory, name, located, isName, shelters, _, _⟩ := spares
  exact ⟨directory, name, located, isName, shelters⟩

theorem Spares.apart {place : Location} (spares : (located place).Spares location disk) :
    ¬ Attends location place := by
  obtain ⟨directory, name, located, _, _, apart, _⟩ := spares
  cases located
  exact apart

theorem Spares.ne_lock (spares : target.Spares location disk) : target.lock ≠ .located location := by
  obtain ⟨directory, name, rfl, _, _, apart, _⟩ := spares
  rw [lock_located]
  rintro ⟨⟩
  exact SourceBaseline.ne_lock apart rfl

theorem Spares.ne_grave (spares : target.Spares location disk) (token : String) :
    Lock.grave target.lock token ≠ .located location := by
  obtain ⟨directory, name, rfl, _, _, apart, _⟩ := spares
  rw [lock_located, grave_located]
  rintro ⟨⟩
  exact SourceBaseline.ne_grave apart token rfl

theorem Spares.later (spares : target.Spares location disk) (leaves : disk.Leaves location after) :
    target.Spares location after := by
  obtain ⟨directory, name, located, isName, shelters, apart, clear⟩ := spares
  refine ⟨directory, name, located, isName, leaves.changes.shelters shelters, apart, ?_⟩
  rwa [leaves.same]

theorem Spares.leaves_ensureDirectory (spares : target.Spares location host.disk) :
    (Action.ensureDirectory target.directories).Relates (Disk.Leaves location) host := by
  refine ⟨?_, spares.sheltered.stays_ensureDirectory⟩
  obtain ⟨directory, name, rfl, isName, shelters, apart, clear⟩ := spares
  rw [directories_located]
  rcases Disk.grows_of_ensureDirectory shelters.named shelters.free location with
    same | ⟨within, missing, _⟩
  · exact same
  · exact absurd within (clear missing)

theorem Spares.directories_lock (spares : target.Spares location disk) :
    target.lock.directories = target.directories := by
  obtain ⟨directory, name, rfl, _⟩ := spares
  rw [lock_located, directories_located, directories_located]

end Target

namespace Lock

theorem leaves_createFile {content : ByteArray} (sheltered : target.Sheltered [] disk)
    (elsewhere : target.lock ≠ .located location)
    (created : disk.createFile target.lock.route content = .ok after) :
    disk.Leaves location after := by
  obtain ⟨directory, name, rfl, isName, shelters⟩ := sheltered
  rw [Target.lock_located] at created elsewhere
  obtain ⟨_, becomes⟩ := Disk.becomes_of_createFile (shelters.named_concat (isName_lock isName))
    shelters.free created
  refine ⟨?_, shelters.changesBelow_createFile (isName_lock isName) created⟩
  rw [becomes location, if_neg fun same => elsewhere (congrArg Target.located same.symm)]

theorem leaves_breakStale {holder : Holder} {number : Nat} (sheltered : target.Sheltered [] disk)
    (notLock : target.lock ≠ .located location)
    (notGrave : grave target.lock (holder.text ++ "-" ++ toString number) ≠ .located location)
    (broken : breakStale target.lock (holder.text ++ "-" ++ toString number) disk = some after) :
    disk.Leaves location after := by
  refine ⟨?_, changesBelow_breakStale sheltered.lock broken⟩
  obtain ⟨directory, name, rfl, isName, shelters⟩ := sheltered
  rw [Target.lock_located] at notLock notGrave broken
  rw [Target.grave_located] at notGrave
  rw [breakStale, Target.grave_located] at broken
  split at broken
  next text moved stale renamed =>
    have lockIsName := isName_lock isName
    have graveIsName := isName_grave lockIsName holder number
    obtain ⟨entry, _, stands⟩ := shelters.find?_of_rename lockIsName graveIsName renamed
    have gone := Disk.becomes_of_removeFile (shelters.named_concat graveIsName)
      (shelters.linkFree_of_rename lockIsName graveIsName renamed) (toOption_eq_some_iff.1 broken)
    have elsewhere := fun same => notGrave (congrArg Target.located (Eq.symm same))
    rw [gone location, if_neg elsewhere, stands location, if_neg elsewhere,
      if_neg fun same => notLock (congrArg Target.located same.symm)]
  next => cases broken

theorem leaves_take {holder : Holder} {number : Nat} (spares : target.Spares location disk)
    (taken : take target.lock (holder.text ++ "-" ++ toString number) timeout disk = .ok after) :
    disk.Leaves location after := by
  obtain ⟨before, start, created⟩ := exists_of_take taken
  have first : disk.Leaves location before := by
    rcases start with rfl | broken
    · exact refl_of (Disk.Leaves location) before
    · exact leaves_breakStale spares.sheltered spares.ne_lock (spares.ne_grave _) broken
  have sparesThen := spares.later first
  exact trans_of (Disk.Leaves location) first
    (leaves_createFile sparesThen.sheltered sparesThen.ne_lock created)

theorem leaves_acquire (spares : target.Spares location host.disk) :
    (acquire target timeout).Relates (Disk.Leaves location) host := by
  unfold acquire
  rw [spares.directories_lock]
  refine spares.leaves_ensureDirectory.bind ?_
  intro _ ready made
  have sparesThen := spares.later (spares.leaves_ensureDirectory.of_ran made)
  refine (Action.relates_of_same rfl).bind ?_
  intro token counted given
  cases given
  unfold Action.Relates
  dsimp only
  split
  next after taken => exact leaves_take sparesThen taken
  next => exact refl_of (Disk.Leaves location) ready.disk

theorem leaves_drop {lock : Lock} (sheltered : lock.target.Sheltered [] disk)
    (elsewhere : lock.target.lock ≠ .located location) : disk.Leaves location (lock.drop disk) := by
  refine ⟨?_, changesBelow_drop sheltered⟩
  rcases lock.drop_cases disk with same | ⟨_, removed⟩
  · rw [same]
  · obtain ⟨directory, name, located, isName, shelters⟩ := sheltered
    rw [located, Target.lock_located] at removed elsewhere
    have becomes := Disk.becomes_of_removeFile (shelters.named_concat (isName_lock isName))
      shelters.free removed
    exact (becomes location).trans (if_neg fun same => elsewhere (congrArg Target.located same.symm))

theorem breakStale_eq_none {place : Location} {content : ByteArray} (token : String)
    (named : ∀ name ∈ place, IsName name) (free : disk.LinkFree place)
    (fresh : disk.find? place = some (.file content 0)) :
    breakStale (.located place) token disk = none := by
  have standing : staleText? disk (Target.located place).route = none := by
    unfold staleText?
    split
    next text age found =>
      obtain ⟨reached, located, looked⟩ := bind_eq_ok_iff.1 found
      obtain rfl := Disk.eq_of_locate named free located
      rw [fresh] at looked
      cases looked
      rfl
    next => rfl
  rw [breakStale, standing]

section Held

variable {directory : Location} {name : String} {lock : Lock} {later : Host}
  (isName : IsName name) (shelters : host.disk.Shelters [] directory)
  (acquired : acquire (.located (directory ++ [name])) timeout host = (.ok lock, later))

include isName shelters acquired

/-- A lock that is held stands as a fresh file beside a place that fits. -/
theorem stands_of_acquire :
    Location.Fits (directory ++ [name]) ∧
      ∃ content, later.disk.find? (directory ++ [name ++ ".lock"]) = some (.file content 0) := by
  obtain ⟨ready, taken, ensured, rfl, took, rfl⟩ := exists_of_acquire acquired
  rw [Target.lock_located, Target.directories_located] at ensured
  have grown := shelters.changesBelow_ensureDirectory
  rw [ensured] at grown
  obtain ⟨before, start, created⟩ := exists_of_take took
  have first : Disk.ChangesBelow [] ready before := by
    rcases start with rfl | broken
    · exact .refl [] before
    · have sheltered : (Target.located (directory ++ [name])).Sheltered [] ready :=
        ⟨directory, name, rfl, isName, grown.shelters shelters⟩
      exact changesBelow_breakStale sheltered.lock broken
  have sheltersThen := (grown.trans first).shelters shelters
  rw [Target.lock_located] at created
  have named := sheltersThen.named_concat (isName_lock isName)
  obtain ⟨_, becomes⟩ := Disk.becomes_of_createFile named sheltersThen.free created
  have fits := Disk.fits_of_createFile named sheltersThen.free created
  exact ⟨fits.without, _, (becomes _).trans (if_pos rfl)⟩

theorem find?_lock_of_acquire (content : ByteArray) :
    host.disk.find? (directory ++ [name ++ ".lock"]) ≠ some (.file content 0) := by
  intro held
  obtain ⟨ready, taken, ensured, _, took, _⟩ := exists_of_acquire acquired
  rw [Target.lock_located, Target.directories_located] at ensured
  have grown := Disk.grows_of_ensureDirectory shelters.named shelters.free
  rw [ensured] at grown
  have fresh : ready.find? (directory ++ [name ++ ".lock"]) = some (.file content 0) := by
    rcases grown (directory ++ [name ++ ".lock"]) with same | ⟨_, missing, _⟩
    · exact same.trans held
    · exact nomatch held.symm.trans missing
  have free := grown.linkFree shelters.free
  have named := shelters.named_concat (isName_lock isName)
  obtain ⟨before, start, created⟩ := exists_of_take took
  rw [Target.lock_located] at start created
  rcases start with rfl | broken
  · obtain ⟨absent, _⟩ := Disk.becomes_of_createFile named free created
    exact nomatch fresh.symm.trans absent
  · rw [breakStale_eq_none _ named (free.concat fun _ link => nomatch fresh.symm.trans link) fresh]
      at broken
    cases broken

end Held

end Lock

namespace StagedWrite

variable {staged : StagedWrite} {content : ByteArray}

theorem leaves_stage (spares : target.Spares location host.disk) :
    (stage target content).Relates (Disk.Leaves location) host := by
  refine spares.leaves_ensureDirectory.bind ?_
  intro _ ready made
  have sparesThen := spares.later (spares.leaves_ensureDirectory.of_ran made)
  unfold Action.Relates
  dsimp only
  split
  next staged after written =>
    refine ⟨?_, (pending_of_writeTemporary sparesThen.sheltered written).1⟩
    obtain ⟨directory, name, rfl, _, shelters, apart, _⟩ := sparesThen
    obtain ⟨number, _, _, created⟩ := exists_of_writeTemporary written
    obtain ⟨_, becomes⟩ := Disk.becomes_of_createFile
      (shelters.named_concat (isName_temporaryName number)) shelters.free created
    exact (becomes location).trans (if_neg (ne_temporary apart number))
  next => exact refl_of (Disk.Leaves location) ready.disk

theorem find?_of_discard (pending : staged.Pending [] host.disk)
    (elsewhere : staged.temporary ≠ .located location) :
    (staged.discard host).2.disk.find? location = host.disk.find? location := by
  obtain ⟨directory, name, number, _, temporary, _, shelters, _⟩ := pending
  unfold discard Action.change
  rw [temporary] at elsewhere ⊢
  split
  next after removed =>
    have becomes := Disk.becomes_of_removeFile (shelters.named_concat (isName_temporaryName number))
      shelters.free removed
    refine (becomes location).trans (if_neg ?_)
    rintro rfl
    exact elsewhere rfl
  next => rfl

theorem leaves_discard (pending : staged.Pending [] host.disk)
    (elsewhere : staged.temporary ≠ .located location) :
    staged.discard.Relates (Disk.Leaves location) host :=
  ⟨find?_of_discard pending elsewhere, stays_discard pending⟩

theorem Pending.elsewhere (pending : staged.Pending [] host.disk)
    (spares : staged.target.Spares location disk) : staged.temporary ≠ .located location := by
  obtain ⟨directory, name, number, placed, temporary, _⟩ := pending
  rw [placed] at spares
  rw [temporary]
  rintro ⟨⟩
  exact ne_temporary spares.apart number rfl

/-- A write that takes its place leaves alone what is neither that place nor its temporary file. -/
theorem leaves_commit (pending : staged.Pending [] host.disk)
    (unused : staged.temporary ≠ .located location) (elsewhere : staged.target ≠ .located location) :
    staged.commit.Relates (Disk.Leaves location) host := by
  have renames : (Action.change fun disk =>
      disk.rename staged.temporary.route staged.target.route).Relates (Disk.Leaves location) host := by
    refine Action.relates_change fun after renamed => ?_
    have changes := (stays_rename pending).changesBelow (Action.change_of_ok renamed)
    refine ⟨?_, changes⟩
    obtain ⟨directory, name, number, placed, temporary, isName, shelters, _⟩ := pending
    rw [placed] at elsewhere renamed
    rw [temporary] at unused renamed
    obtain ⟨_, _, moves⟩ := shelters.find?_of_rename (isName_temporaryName number) isName renamed
    rw [moves, if_neg fun same => elsewhere (congrArg Target.located same.symm),
      if_neg fun same => unused (congrArg Target.located same.symm)]
  refine renames.onError fun _ later refused => ?_
  have leaves := renames.of_ran refused
  exact leaves_discard (pending.later leaves.changes) unused

/-- A write that cannot take its place takes another one back with it. -/
theorem leaves_commit_onError {other : StagedWrite} (pending : staged.Pending [] host.disk)
    (otherPending : other.Pending [] host.disk) (unused : staged.temporary ≠ .located location)
    (otherUnused : other.temporary ≠ .located location)
    (elsewhere : staged.target ≠ .located location) :
    (Action.onError staged.commit other.discard).Relates (Disk.Leaves location) host := by
  have commits := leaves_commit pending unused elsewhere
  refine commits.onError fun _ later refused => ?_
  exact leaves_discard (otherPending.later (commits.of_ran refused).changes) otherUnused

/-- The write for a place waits, with its content, under a temporary name beside the place. -/
structure Waits (staged : StagedWrite) (place temporary : Location) (content : ByteArray)
    (disk : Disk) : Prop where
  target : staged.target = .located place
  holds : staged.temporary = .located temporary
  beside : ∃ directory name number, place = directory ++ [name] ∧
    temporary = directory ++ [temporaryName number] ∧ IsName name ∧ disk.Shelters [] directory
  fits : temporary.Fits
  stands : disk.find? temporary = some (.file content 0)

namespace Waits

variable {place temporary : Location}

theorem attends (waits : staged.Waits place temporary content disk) : Attends temporary place := by
  obtain ⟨_, _, ⟨directory, name, number, rfl, rfl, _⟩, _, _⟩ := waits
  exact ⟨directory, name, _, rfl, rfl, .inr ⟨_, String.toList_append.symm⟩⟩

theorem pending (waits : staged.Waits place temporary content disk) : staged.Pending [] disk := by
  obtain ⟨target, holds, ⟨directory, name, number, rfl, rfl, isName, shelters⟩, _, stands⟩ := waits
  exact ⟨directory, name, number, target, holds, isName, shelters,
    fun _ link => nomatch stands.symm.trans link⟩

theorem later (waits : staged.Waits place temporary content disk)
    (changes : Disk.ChangesBelow [] disk after)
    (still : after.find? temporary = disk.find? temporary) :
    staged.Waits place temporary content after := by
  obtain ⟨target, holds, ⟨directory, name, number, placed, named, isName, shelters⟩, fits, stands⟩ :=
    waits
  exact ⟨target, holds, ⟨directory, name, number, placed, named, isName, changes.shelters shelters⟩,
    fits, still.trans stands⟩

end Waits

section Waiting

variable {place temporary : Location} {later : Host} {outcome : Outcome Unit}

/-- A staged write waits for its turn under a name that was free, and all that stood still stands. -/
theorem waits_of_stage {directory : Location} {name : String} (isName : IsName name)
    (shelters : host.disk.Shelters [] directory)
    (ran : stage (.located (directory ++ [name])) content host = (.ok staged, later)) :
    ∃ temporary, staged.Waits (directory ++ [name]) temporary content later.disk ∧
      host.disk.find? temporary = none ∧
      ∀ location entry, host.disk.find? location = some entry →
        later.disk.find? location = some entry := by
  obtain ⟨ready, written, ensured, wrote, rfl⟩ := exists_of_stage ran
  rw [Target.directories_located] at ensured
  have grown := Disk.grows_of_ensureDirectory shelters.named shelters.free
  have changes := shelters.changesBelow_ensureDirectory
  rw [ensured] at grown changes
  have sheltersThen := changes.shelters shelters
  obtain ⟨number, targeted, temporary, created⟩ := exists_of_writeTemporary wrote
  have named := sheltersThen.named_concat (isName_temporaryName number)
  obtain ⟨absent, becomes⟩ := Disk.becomes_of_createFile named sheltersThen.free created
  have last := sheltersThen.changesBelow_createFile (isName_temporaryName number) created
  -- Making directories and the temporary file adds to the disk and takes nothing away.
  have stands : ∀ location entry, host.disk.find? location = some entry →
      ready.find? location = some entry := by
    intro location entry stood
    rcases grown location with same | ⟨_, missing, _⟩
    · exact same.trans stood
    · exact nomatch stood.symm.trans missing
  refine ⟨_, ⟨targeted, temporary, ⟨directory, name, number, rfl, rfl, isName,
    last.shelters sheltersThen⟩, Disk.fits_of_createFile named sheltersThen.free created, ?_⟩, ?_, ?_⟩
  · exact (becomes _).trans (if_pos rfl)
  · rw [Option.eq_none_iff_forall_ne_some]
    intro entry stood
    exact nomatch (stands _ _ stood).symm.trans absent
  · intro location entry stood
    refine (becomes location).trans ?_
    rw [if_neg, stands location entry stood]
    rintro rfl
    exact nomatch (stands _ _ stood).symm.trans absent

/-- A write that waits takes its place unless a directory stands there. -/
theorem commit_cases (waits : staged.Waits place temporary content host.disk) (fits : place.Fits)
    (ran : staged.commit host = (outcome, later)) :
    (outcome = .ok () ∧ ∀ location, later.disk.find? location =
        if location = place then some (.file content 0)
        else if location = temporary then none
        else host.disk.find? location) ∨
      outcome = .error (.disk .isDirectory) ∧ host.disk.find? place = some .directory ∧
        ∀ location, location ≠ temporary → later.disk.find? location = host.disk.find? location := by
  have pending := waits.pending
  obtain ⟨target, holds, ⟨directory, name, number, rfl, rfl, isName, shelters⟩, temporaryFits,
    stands⟩ := waits
  have named := shelters.named_concat (isName_temporaryName number)
  rw [commit, holds, target, Action.onError] at ran
  rcases Disk.rename_of_fits named shelters.free isName temporaryFits fits stands with
    ⟨blocked, refused⟩ | ⟨_, moved, renamed⟩
  · rw [Action.change_of_error refused] at ran
    cases ran
    refine .inr ⟨rfl, blocked, ?_⟩
    intro location elsewhere
    apply find?_of_discard pending
    rw [holds]
    rintro ⟨⟩
    exact elsewhere rfl
  · rw [Action.change_of_ok renamed] at ran
    cases ran
    obtain ⟨entry, stood, moves⟩ :=
      shelters.find?_of_rename (isName_temporaryName number) isName renamed
    cases stands.symm.trans stood
    exact .inl ⟨rfl, moves⟩

end Waiting

end StagedWrite

end SourceBaseline
