import Mathlib.Data.List.Nodup
import Mathlib.Data.List.Perm.Subperm
import SourceBaseline.Baseline.Store
import SourceBaseline.Proofs.Target

/-!
# Staged writes below the root

A write that is staged for a sheltered target leaves a temporary file beside it that is no link.
Discarding it and letting it take its place then change nothing but what lies below the root.
-/

set_option autoImplicit false

namespace SourceBaseline

namespace StagedWrite

variable {root : Location} {host : Host} {disk after : Disk} {target : Target}
  {staged : StagedWrite} {content : ByteArray}

/-- The temporary file stands beside a target below the root, and is no link. -/
def Pending (staged : StagedWrite) (root : Location) (disk : Disk) : Prop :=
  ∃ directory name number,
    staged.target = .located (directory ++ [name]) ∧
    staged.temporary = .located (directory ++ [temporaryName number]) ∧
    IsName name ∧ disk.Shelters root directory ∧
    ∀ linked, disk.find? (directory ++ [temporaryName number]) ≠ some (.link linked)

theorem Pending.later {before : Disk} (pending : staged.Pending root before)
    (changes : Disk.ChangesBelow root before after) : staged.Pending root after := by
  obtain ⟨directory, name, number, placed, temporary, isName, shelters, noLink⟩ := pending
  refine ⟨directory, name, number, placed, temporary, isName, changes.shelters shelters, ?_⟩
  intro linked link
  exact noLink linked (changes.noNewLink _ linked link)

theorem createFile_of_writeTemporary
    (written : writeTemporary disk target content = .ok (staged, after)) :
    staged.target = target ∧ (∃ number, staged.temporary = target.beside (temporaryName number)) ∧
      disk.createFile staged.temporary.route content = .ok after := by
  rw [writeTemporary] at written
  split at written
  next => cases written
  next temporary free =>
    obtain ⟨number, _, beside⟩ := Option.map_eq_some_iff.1 free
    obtain ⟨_, created, same⟩ := bind_eq_ok_iff.1 written
    cases same
    exact ⟨rfl, ⟨number, beside.symm⟩, created⟩

theorem exists_of_writeTemporary {directory : Location} {name : String}
    (written : writeTemporary disk (.located (directory ++ [name])) content = .ok (staged, after)) :
    ∃ number, staged.target = .located (directory ++ [name]) ∧
      staged.temporary = .located (directory ++ [temporaryName number]) ∧
      disk.createFile (Location.route (directory ++ [temporaryName number])) content = .ok after := by
  obtain ⟨targeted, ⟨number, beside⟩, created⟩ := createFile_of_writeTemporary written
  rw [Target.beside_located] at beside
  rw [beside] at created
  exact ⟨number, targeted, beside, created⟩

theorem pending_of_writeTemporary (sheltered : target.Sheltered root disk)
    (written : writeTemporary disk target content = .ok (staged, after)) :
    Disk.ChangesBelow root disk after ∧ staged.Pending root after := by
  obtain ⟨directory, name, rfl, isName, shelters⟩ := sheltered
  obtain ⟨number, placed, temporary, created⟩ := exists_of_writeTemporary written
  have changes := shelters.changesBelow_createFile (isName_temporaryName number) created
  refine ⟨changes, directory, name, number, placed, temporary, isName, changes.shelters shelters, ?_⟩
  obtain ⟨_, becomes⟩ := Disk.becomes_of_createFile
    (shelters.named_concat (isName_temporaryName number)) shelters.free created
  intro linked link
  rw [becomes, if_pos rfl] at link
  cases link

theorem stays_stage (sheltered : target.Sheltered root host.disk) :
    (stage target content).StaysBelow root host := by
  refine sheltered.stays_ensureDirectory.bind ?_
  intro _ ready made
  have shelteredThen := sheltered.later (sheltered.stays_ensureDirectory.changesBelow made)
  unfold Action.StaysBelow
  dsimp only
  split
  next staged after written => exact (pending_of_writeTemporary shelteredThen written).1
  next => exact .refl root ready.disk

theorem pending_of_stage {later : Host} (sheltered : target.Sheltered root host.disk)
    (ran : stage target content host = (.ok staged, later)) : staged.Pending root later.disk := by
  rw [stage, Action.bind_apply] at ran
  split at ran
  next _ ready made =>
    have shelteredThen := sheltered.later (sheltered.stays_ensureDirectory.changesBelow made)
    split at ran
    next written =>
      cases ran
      exact (pending_of_writeTemporary shelteredThen written).2
    next => cases ran
  next => cases ran

theorem stays_discard (pending : staged.Pending root host.disk) :
    staged.discard.StaysBelow root host := by
  obtain ⟨directory, name, number, _, temporary, _, shelters, _⟩ := pending
  apply Action.stays_change
  intro after removed
  rw [temporary] at removed
  exact shelters.changesBelow_removeFile (isName_temporaryName number) removed

theorem stays_rename (pending : staged.Pending root host.disk) :
    (Action.change fun disk =>
      disk.rename staged.temporary.route staged.target.route).StaysBelow root host := by
  obtain ⟨directory, name, number, placed, temporary, isName, shelters, noLink⟩ := pending
  apply Action.stays_change
  intro after renamed
  rw [temporary, placed] at renamed
  exact shelters.changesBelow_rename (isName_temporaryName number) isName noLink renamed

theorem stays_commit (pending : staged.Pending root host.disk) :
    staged.commit.StaysBelow root host := by
  refine (stays_rename pending).onError ?_
  intro _ _ ran
  exact stays_discard (pending.later ((stays_rename pending).changesBelow ran))

/-- A write that cannot take its place takes another one back with it. -/
theorem stays_commit_onError {other : StagedWrite} (pending : staged.Pending root host.disk)
    (otherPending : other.Pending root host.disk) :
    (Action.onError staged.commit other.discard).StaysBelow root host := by
  refine (stays_commit pending).onError ?_
  intro _ later ran
  exact stays_discard (otherPending.later ((stays_commit pending).changesBelow ran))

/-! ## What was done for a write -/

theorem exists_of_stage {later : Host}
    (ran : stage target content host = (.ok staged, later)) :
    ∃ ready written, host.disk.ensureDirectory target.directories = (.ok (), ready) ∧
      writeTemporary ready target content = .ok (staged, written) ∧
      later = { host with disk := written } := by
  rw [stage, Action.bind_apply] at ran
  split at ran
  next _ ready made =>
    obtain ⟨ensured, rfl⟩ := Prod.mk.inj made
    rw [Outcome.ofDisk_eq_ok_iff] at ensured
    dsimp only at ran
    split at ran
    next written wrote =>
      cases ran
      exact ⟨_, _, Prod.ext ensured rfl, wrote, rfl⟩
    next => cases ran
  next => cases ran

theorem exists_of_commit {later : Host} (ran : staged.commit host = (.ok (), later)) :
    ∃ moved, host.disk.rename staged.temporary.route staged.target.route = .ok moved ∧
      later = { host with disk := moved } := by
  have ran := Action.eq_ok_of_onError ran
  unfold Action.change at ran
  split at ran
  next moved renamed =>
    cases ran
    exact ⟨moved, renamed, rfl⟩
  next => cases ran

/-! ## Two hosts -/

section Matching

variable {alike : Disk → Disk → Prop} {directory : Location} {name : String} {first second : Host}
  {firstDisk secondDisk : Disk}

/-- There are more temporary names to try than entries on the disk, so one of them is free. -/
theorem exists_freeName (named : ∀ other ∈ directory, IsName other) (free : disk.LinkFree directory) :
    ∃ number, number ∈ List.range (disk.size + 1) ∧
      isFree disk (.located (directory ++ [temporaryName number])) = true := by
  apply Classical.byContradiction
  intro none
  -- Otherwise a different entry stands under each of the names.
  have taken : ∀ number ∈ List.range (disk.size + 1),
      directory ++ [temporaryName number] ∈ (disk.below []).map Prod.fst := by
    intro number member
    have occupied : isFree disk (.located (directory ++ [temporaryName number])) ≠ true :=
      fun free => none ⟨number, member, free⟩
    unfold isFree at occupied
    split at occupied
    next entry found =>
      have namedToo := Location.named_concat named (isName_temporaryName number)
      have freeToo : disk.LinkFree (directory ++ [temporaryName number]).dropLast := by
        rwa [List.dropLast_concat]
      have stands := Disk.find?_of_inspectLink namedToo freeToo found
      exact List.mem_map.2 ⟨_, Disk.mem_below_of_find? stands (by simp), rfl⟩
    next => exact absurd rfl occupied
  have distinct : ((List.range (disk.size + 1)).map fun number =>
      directory ++ [temporaryName number]).Nodup := by
    apply List.Nodup.map ?_ List.nodup_range
    intro one other same
    exact temporaryName_injective (by simpa using same)
  have listed : (List.range (disk.size + 1)).map (fun number =>
      directory ++ [temporaryName number]) ⊆ (disk.below []).map Prod.fst := by
    intro place member
    obtain ⟨number, inside, rfl⟩ := List.mem_map.1 member
    exact taken number inside
  have bounded := (List.Nodup.subperm distinct listed).length_le
  simp only [List.length_map, List.length_range, Disk.size] at bounded
  omega

theorem isFree_congr (isName : IsName name) (free : firstDisk.LinkFree directory)
    (parallel : Disk.Parallel alike directory) (related : alike firstDisk secondDisk) :
    isFree firstDisk (.located (directory ++ [name])) =
      isFree secondDisk (.located (directory ++ [name])) := by
  have same := parallel.finds related isName free
  unfold isFree
  dsimp only [Target.route]
  generalize firstDisk.inspectLink _ = found at same ⊢
  generalize secondDisk.inspectLink _ = foundToo at same ⊢
  cases found <;> cases foundToo
  case ok.error => cases same
  case error.ok => cases same
  all_goals rfl

/-- The temporary name depends on nothing but what stands beside the target. -/
theorem freeName?_congr (named : ∀ other ∈ directory, IsName other)
    (free : firstDisk.LinkFree directory) (parallel : Disk.Parallel alike directory)
    (related : alike firstDisk secondDisk) :
    freeName? firstDisk (.located (directory ++ [name])) =
      freeName? secondDisk (.located (directory ++ [name])) := by
  have same : ∀ number, isFree firstDisk (.located (directory ++ [temporaryName number])) =
      isFree secondDisk (.located (directory ++ [temporaryName number])) :=
    fun number => isFree_congr (isName_temporaryName number) free parallel related
  unfold freeName?
  simp only [Target.beside_located, ← same]
  -- The disks may differ in size, but the first free name comes within both bounds.
  congr 1
  cases found : (List.range (firstDisk.size + 1)).find? _ with
  | none =>
      obtain ⟨number, inside, isFree⟩ := exists_freeName named free
      rw [List.find?_range_eq_none] at found
      simpa [isFree] using found number (List.mem_range.1 inside)
  | some number =>
      cases otherFound : (List.range (secondDisk.size + 1)).find? _ with
      | none =>
          obtain ⟨number, inside, isFree⟩ := exists_freeName named (parallel.linkFree related free)
          rw [List.find?_range_eq_none] at otherFound
          simpa [same, isFree] using otherFound number (List.mem_range.1 inside)
      | some other =>
          rw [List.find?_range_eq_some] at found otherFound
          obtain ⟨isFree, _, firstOne⟩ := found
          obtain ⟨otherFree, _, otherFirst⟩ := otherFound
          have order := Nat.lt_trichotomy number other
          rcases order with before | equal | after
          · simpa [isFree] using otherFirst number before
          · rw [equal]
          · simpa [otherFree] using firstOne other after

theorem matches_stage (isolated : target.Isolated root first.disk)
    (parallel : target.Parallel alike) (kin : first.Kin alike second) :
    (stage target content).Matches (Host.Kin alike) first second := by
  refine (isolated.matches_ensureDirectory parallel kin).bind ?_
  intro _ ready readyToo made _ kinReady
  have isolatedThen := isolated.later (isolated.sheltered.stays_ensureDirectory.changesBelow made)
  obtain ⟨directory, name, rfl, isName, shelters, _, _⟩ := isolatedThen
  have beside := parallel directory name rfl
  unfold Action.Matches
  dsimp only
  unfold writeTemporary
  rw [← freeName?_congr shelters.named shelters.free beside kinReady.disk]
  cases found : freeName? ready.disk (.located (directory ++ [name])) with
  | none => exact ⟨rfl, kinReady⟩
  | some temporary =>
      obtain ⟨number, _, placed⟩ := Option.map_eq_some_iff.1 found
      rw [Target.beside_located] at placed
      subst placed
      dsimp only [Target.route]
      rcases (beside.creates content kinReady.disk (isName_temporaryName number)
          shelters.free).outcomes with
        ⟨made, otherMade, created, otherCreated, relatedThen⟩ | ⟨fault, failed, otherFailed⟩
      · rw [created, otherCreated]
        exact ⟨rfl, kinReady.withDisks relatedThen⟩
      · rw [failed, otherFailed]
        exact ⟨rfl, kinReady⟩

theorem matches_discard (pending : staged.Pending root first.disk)
    (parallel : staged.target.Parallel alike) (kin : first.Kin alike second) :
    staged.discard.Matches (Host.Kin alike) first second := by
  obtain ⟨directory, name, number, placed, temporary, _, shelters, _⟩ := pending
  apply Action.matches_change kin
  rw [temporary]
  exact (parallel directory name placed).removes kin.disk (isName_temporaryName number) shelters.free

theorem matches_commit (pending : staged.Pending root first.disk)
    (parallel : staged.target.Parallel alike) (kin : first.Kin alike second) :
    staged.commit.Matches (Host.Kin alike) first second := by
  have renames : (Action.change fun disk =>
      disk.rename staged.temporary.route staged.target.route).Matches (Host.Kin alike)
        first second := by
    obtain ⟨directory, name, number, placed, temporary, isName, shelters, _⟩ := pending
    apply Action.matches_change kin
    rw [temporary, placed]
    exact (parallel directory name placed).renames kin.disk (isName_temporaryName number) isName
      shelters.free
  refine renames.onError ?_
  intro _ later other ran _ kinThen
  exact matches_discard (pending.later ((stays_rename pending).changesBelow ran)) parallel kinThen

theorem matches_commit_onError {other : StagedWrite} (pending : staged.Pending root first.disk)
    (parallel : staged.target.Parallel alike) (otherPending : other.Pending root first.disk)
    (otherParallel : other.target.Parallel alike) (kin : first.Kin alike second) :
    (Action.onError staged.commit other.discard).Matches (Host.Kin alike) first second := by
  refine (matches_commit pending parallel kin).onError ?_
  intro _ later _ ran _ kinThen
  exact matches_discard (otherPending.later ((stays_commit pending).changesBelow ran)) otherParallel
    kinThen

end Matching

end StagedWrite

theorem fromUTF8?_toUTF8 (text : String) : String.fromUTF8? text.toUTF8 = some text := by
  have valid : text.toUTF8.IsValidUTF8 := text.isValidUTF8
  rw [String.fromUTF8?, dif_pos valid]
  rfl

namespace Document

variable {α : Type} [Document α] {root : Location} {host later : Host} {lock : Lock}

theorem fromUTF8?_bytes (document : α) :
    String.fromUTF8? (bytes document) = some (documentText (toJson document)) :=
  fromUTF8?_toUTF8 _

theorem stage_apply (lock : Lock) (document : α) (host : Host) :
    stage lock document host =
      (let document := stamped document (creationOnRecord? host.disk lock.target.route) host.now
      (StagedWrite.stage lock.target (bytes document) >>= fun staged => pure (document, staged))
        host) :=
  rfl

theorem stays_stage (document : α) (sheltered : lock.target.Sheltered root host.disk) :
    (stage lock document).StaysBelow root host := by
  unfold Action.StaysBelow
  rw [stage_apply]
  exact (StagedWrite.stays_stage sheltered).bind fun _ _ _ => Action.stays_pure _

theorem pending_of_stage {document stamped : α} {staged : StagedWrite}
    (sheltered : lock.target.Sheltered root host.disk)
    (ran : stage lock document host = (.ok (stamped, staged), later)) :
    staged.Pending root later.disk := by
  rw [stage_apply] at ran
  dsimp only at ran
  rw [Action.bind_apply] at ran
  split at ran
  next _ _ written =>
    cases ran
    exact StagedWrite.pending_of_stage sheltered written
  next => cases ran

/-- A document that cannot be staged takes a staged write back with it. -/
theorem stays_stage_onError {staged : StagedWrite} (document : α)
    (sheltered : lock.target.Sheltered root host.disk) (pending : staged.Pending root host.disk) :
    (Action.onError (stage lock document) staged.discard).StaysBelow root host := by
  refine (stays_stage document sheltered).onError ?_
  intro _ later ran
  exact StagedWrite.stays_discard (pending.later ((stays_stage document sheltered).changesBelow ran))

theorem exists_of_stage {α : Type} [Document α] {lock : Lock} {document stamped : α}
    {staged : StagedWrite} (ran : stage lock document host = (.ok (stamped, staged), later)) :
    stamped = Document.stamped document (creationOnRecord? host.disk lock.target.route) host.now ∧
      StagedWrite.stage lock.target (bytes stamped) host = (.ok staged, later) := by
  rw [stage_apply] at ran
  dsimp only at ran
  rw [Action.bind_apply] at ran
  split at ran
  next _ _ written =>
    cases ran
    exact ⟨rfl, written⟩
  next => cases ran

theorem target_of_stage {document stamped : α} {staged : StagedWrite}
    (ran : stage lock document host = (.ok (stamped, staged), later)) : staged.target = lock.target := by
  obtain ⟨_, wrote⟩ := exists_of_stage ran
  obtain ⟨_, _, _, written, _⟩ := StagedWrite.exists_of_stage wrote
  exact (StagedWrite.createFile_of_writeTemporary written).1

section Matching

variable {alike : Disk → Disk → Prop} {first second : Host} (document : α)
  (isolated : lock.target.Isolated root first.disk) (parallel : lock.target.Parallel alike)
  (kin : first.Kin alike second)

include isolated parallel kin

theorem matches_stage : (stage lock document).Matches (Host.Kin alike) first second := by
  have recorded : creationOnRecord? first.disk lock.target.route =
      creationOnRecord? second.disk lock.target.route := by
    obtain ⟨directory, name, located, isName, shelters, free, _⟩ := isolated
    unfold creationOnRecord? Disk.readText Disk.read
    rw [located, Target.route, (parallel directory name located).inspects kin.disk isName free]
  unfold Action.Matches
  rw [stage_apply, stage_apply, recorded, kin.now]
  refine (StagedWrite.matches_stage isolated parallel kin).bind ?_
  intro staged later other _ _ kinThen
  exact Action.matches_pure kinThen _

theorem matches_stage_onError {staged : StagedWrite} (pending : staged.Pending root first.disk)
    (stagedParallel : staged.target.Parallel alike) :
    (Action.onError (stage lock document) staged.discard).Matches (Host.Kin alike) first second := by
  refine (matches_stage document isolated parallel kin).onError ?_
  intro _ later _ ran _ kinThen
  have changes := (stays_stage document isolated.sheltered).changesBelow ran
  exact StagedWrite.matches_discard (pending.later changes) stagedParallel kinThen

end Matching

end Document

end SourceBaseline
