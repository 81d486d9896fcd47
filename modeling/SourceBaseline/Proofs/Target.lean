import SourceBaseline.Lock
import SourceBaseline.Proofs.Host
import SourceBaseline.Staging

/-!
# Names beside a target

The lock of a located target, its grave and the temporary files for the target stand in its own
directory, under texts that can be names.
-/

set_option autoImplicit false

namespace SourceBaseline

theorem isName_of_long {text : String} (long : 2 < text.length) (undivided : '/' ∉ text.toList) :
    IsName text := by
  refine ⟨?_, ?_, ?_, undivided⟩
  all_goals
    rintro rfl
    revert long
    decide

variable {directory : Location} {name : String}

theorem isName_lock (isName : IsName name) : IsName (name ++ ".lock") := by
  apply isName_of_long
  · have suffix : ".lock".length = 5 := by decide
    rw [String.length_append, suffix]
    omega
  · simp [isName.undivided]

theorem undivided_toDigits (number : Nat) : '/' ∉ Nat.toDigits 10 number := by
  intro member
  have digit : '/'.isDigit = true := Nat.isDigit_of_mem_toDigits (by decide) (by decide) member
  revert digit
  decide

theorem undivided_token (holder : Holder) (number : Nat) :
    '/' ∉ (holder.text ++ "-" ++ toString number).toList := by
  simp [holder.undivided, undivided_toDigits]

theorem isName_aside (isName : IsName name) {token : String} (undivided : '/' ∉ token.toList) :
    IsName (name ++ ".stale-" ++ token) := by
  apply isName_of_long
  · have suffix : ".stale-".length = 7 := by decide
    rw [String.length_append, String.length_append, suffix]
    omega
  · simp [isName.undivided, undivided]

theorem isName_grave (isName : IsName name) (holder : Holder) (number : Nat) :
    IsName (name ++ ".stale-" ++ (holder.text ++ "-" ++ toString number)) :=
  isName_aside isName (undivided_token holder number)

theorem isName_temporaryName (number : Nat) : IsName (StagedWrite.temporaryName number) := by
  apply isName_of_long
  · have start : ".tmp".length = 4 := by decide
    rw [StagedWrite.temporaryName, String.length_append, start]
    omega
  · simp [StagedWrite.temporaryName, undivided_toDigits]

theorem temporaryName_injective {first second : Nat}
    (same : StagedWrite.temporaryName first = StagedWrite.temporaryName second) :
    first = second := by
  have value : ∀ number, Nat.ofDigitChars 10
      ((StagedWrite.temporaryName number).toList.drop 4) 0 = number := by
    intro number
    simp [StagedWrite.temporaryName, Nat.ofDigitChars_append, Nat.ofDigitChars_replicate_zero]
  rw [← value first, ← value second, same]

namespace Target

theorem lock_located :
    (located (directory ++ [name])).lock = located (directory ++ [name ++ ".lock"]) := by
  simp [lock, renamed, Target.name]

theorem directories_located :
    (located (directory ++ [name])).directories =
      (Location.ancestors directory).map Location.route := by
  simp [directories]

theorem beside_located (other : String) :
    (located (directory ++ [name])).beside other = located (directory ++ [other]) := by
  simp [beside]

theorem grave_located (token : String) :
    Lock.grave (located (directory ++ [name])) token =
      located (directory ++ [name ++ ".stale-" ++ token]) := by
  simp [Lock.grave, renamed, Target.name]

/-- The target lies below the root, and its directory behind no link. -/
def Sheltered (target : Target) (root : Location) (disk : Disk) : Prop :=
  ∃ directory name,
    target = .located (directory ++ [name]) ∧ IsName name ∧ disk.Shelters root directory

theorem Sheltered.named {place root : Location} {disk : Disk}
    (sheltered : (Target.located place).Sheltered root disk) : ∀ name ∈ place, IsName name := by
  obtain ⟨directory, name, located, isName, shelters⟩ := sheltered
  cases located
  exact shelters.named_concat isName

theorem Sheltered.later {target : Target} {root : Location} {before after : Disk}
    (sheltered : target.Sheltered root before) (changes : Disk.ChangesBelow root before after) :
    target.Sheltered root after := by
  obtain ⟨directory, name, located, isName, shelters⟩ := sheltered
  exact ⟨directory, name, located, isName, changes.shelters shelters⟩

/-- A sheltered target that is no link and whose lock is no link. -/
def Isolated (target : Target) (root : Location) (disk : Disk) : Prop :=
  ∃ directory name,
    target = .located (directory ++ [name]) ∧ IsName name ∧ disk.Shelters root directory ∧
    disk.LinkFree (directory ++ [name]) ∧ disk.LinkFree (directory ++ [name ++ ".lock"])

theorem Isolated.sheltered {target : Target} {root : Location} {disk : Disk}
    (isolated : target.Isolated root disk) : target.Sheltered root disk := by
  obtain ⟨directory, name, located, isName, shelters, _, _⟩ := isolated
  exact ⟨directory, name, located, isName, shelters⟩

theorem Isolated.later {target : Target} {root : Location} {before after : Disk}
    (isolated : target.Isolated root before) (changes : Disk.ChangesBelow root before after) :
    target.Isolated root after := by
  obtain ⟨directory, name, located, isName, shelters, free, lockFree⟩ := isolated
  exact ⟨directory, name, located, isName, changes.shelters shelters, changes.linkFree free,
    changes.linkFree lockFree⟩

/-- What is done beside the target comes to the same on related disks. -/
def Parallel (target : Target) (alike : Disk → Disk → Prop) : Prop :=
  ∀ directory name, target = .located (directory ++ [name]) → Disk.Parallel alike directory

theorem Sheltered.parallel {target : Target} {root : Location} {disk : Disk}
    (sheltered : target.Sheltered root disk) : target.Parallel (Disk.Alike root) := by
  obtain ⟨directory, name, rfl, _, shelters⟩ := sheltered
  intro other last same
  obtain ⟨rfl, _⟩ := List.append_inj' (Target.located.inj same) rfl
  exact Disk.parallel_alike shelters.named shelters.within

theorem Isolated.matches_ensureDirectory {target : Target} {root : Location} {first second : Host}
    {alike : Disk → Disk → Prop} (isolated : target.Isolated root first.disk)
    (parallel : target.Parallel alike) (kin : first.Kin alike second) :
    (Action.ensureDirectory target.directories).Matches (Host.Kin alike) first second := by
  obtain ⟨directory, name, rfl, _, shelters, _, _⟩ := isolated
  rw [directories_located]
  exact Action.matches_ensureDirectory (parallel directory name rfl) kin shelters.free

theorem Sheltered.lock {target : Target} {root : Location} {disk : Disk}
    (sheltered : target.Sheltered root disk) : target.lock.Sheltered root disk := by
  obtain ⟨directory, name, rfl, isName, shelters⟩ := sheltered
  exact ⟨directory, name ++ ".lock", lock_located, isName_lock isName, shelters⟩

theorem Sheltered.stays_ensureDirectory {target : Target} {root : Location} {host : Host}
    (sheltered : target.Sheltered root host.disk) :
    (Action.ensureDirectory target.directories).StaysBelow root host := by
  obtain ⟨directory, name, rfl, isName, shelters⟩ := sheltered
  rw [directories_located]
  exact shelters.changesBelow_ensureDirectory

end Target

end SourceBaseline
