import SourceBaseline.Proofs.Calls
import SourceBaseline.Proofs.Lock
import SourceBaseline.Proofs.Staging

/-!
# Targets written as paths

A target is named by a path, or by the location to which a path was found to lead. Whoever names it by
the path of the location finds the same names beside it and the same directories above it, so a save
does the same in both cases.
-/

set_option autoImplicit false

namespace SourceBaseline

variable {location directory : Location} {name : String}

namespace Path

theorem dropVoid_of_isName (named : ∀ name ∈ location, IsName name) : dropVoid location = location := by
  rcases List.eq_nil_or_concat location with rfl | ⟨above, last, split⟩
  · rfl
  · rw [List.concat_eq_append] at split
    subst split
    have isName := named last (by simp)
    simp [dropVoid, isVoid, isName.nonempty, isName.notHere]

end Path

namespace Location

theorem route_path (named : ∀ name ∈ location, IsName name) (inner : location ≠ []) :
    (Location.path location).route = Location.route location := by
  have kept : location.filter (· ≠ "") = location := by
    rw [List.filter_eq_self]
    intro name member
    simpa using (named name member).nonempty
  have last : ("" :: location).getLast? ≠ some "" := by
    intro void
    rw [List.getLast?_cons] at void
    cases ends : location.getLast? with
    | none => exact inner (List.getLast?_eq_none_iff.1 ends)
    | some name =>
        rw [ends] at void
        exact (named name (List.mem_of_getLast? ends)).nonempty (Option.some.inj void)
  rw [Path.route, Location.route, Path.walkNames, pieces_path named inner]
  simp only [if_neg last, List.append_nil]
  rw [List.filter_cons_of_neg (by simp), kept]

theorem parent?_path (named : ∀ other ∈ directory ++ [name], IsName other) :
    (Location.path (directory ++ [name])).parent? = some (Location.path directory) := by
  have above : ∀ other ∈ directory, IsName other := Location.named_above named
  have absolute := isAbsolute_path (directory ++ [name])
  rw [Path.parent?, Path.leadAndBody, if_pos absolute, pieces_path named (by simp)]
  simp only [List.drop_succ_cons, List.drop_zero, Path.dropVoid_of_isName named,
    Path.dropVoid_of_isName above, List.dropLast_concat, if_pos absolute]
  simp [Location.path]

theorem fileName?_path (named : ∀ other ∈ directory ++ [name], IsName other) :
    (Location.path (directory ++ [name])).fileName? = some name := by
  rw [Path.fileName?, components_path named]
  simp [List.getLast?_cons]

theorem path_join (named : ∀ other ∈ directory, IsName other) (isName : IsName name) :
    (Location.path directory).join ⟨name⟩ = Location.path (directory ++ [name]) := by
  rw [Path.join_of_isName isName]
  rcases List.eq_nil_or_concat directory with rfl | ⟨above, last, split⟩
  · simp [Location.path, Path.endsInSeparator]
  · rw [List.concat_eq_append] at split
    subst split
    have separator := @not_endsInSeparator above last (named last (by simp))
    have solid : (Location.path (above ++ [last])).text ≠ "" := by simp [Location.path]
    have joined : "/".intercalate ((above ++ [last]) ++ [name]) =
        "/".intercalate (above ++ [last]) ++ "/" ++ "/".intercalate [name] :=
      String.intercalate_append_of_ne_nil (by simp) (by simp)
    rw [if_neg (by simp [solid, separator]), Location.path, Location.path, joined]
    simp [String.append_assoc]

theorem withFileName_path {other : String} (named : ∀ other ∈ directory ++ [name], IsName other)
    (isName : IsName other) :
    (Location.path (directory ++ [name])).withFileName other = Location.path (directory ++ [other]) := by
  rw [Path.withFileName, fileName?_path named, parent?_path named]
  exact path_join (named_above named) isName

theorem length_le_text (named : ∀ name ∈ location, IsName name) :
    location.length ≤ (Location.path location).text.length := by
  induction location with
  | nil => simp
  | cons name rest ih =>
      have later := ih fun other member => named other (.tail _ member)
      have nonempty : name.length ≠ 0 := by
        intro empty
        exact (named name (.head _)).nonempty (String.length_eq_zero_iff.1 empty)
      simp only [Location.path, String.length_append, List.length_cons] at later ⊢
      by_cases last : rest = []
      · subst last
        simp
        omega
      · rw [String.intercalate_cons_of_ne_nil last]
        simp only [String.length_append]
        omega

theorem ancestors_path (named : ∀ name ∈ location, IsName name) :
    (Location.path location).ancestors = (Location.ancestors location).map Location.path := by
  have within : ∀ (count : Nat) (location : Location), (∀ name ∈ location, IsName name) →
      location.length ≤ count →
      Path.ancestorsWithin count (Location.path location) =
        (Location.ancestors location).map Location.path := by
    intro count
    induction count with
    | zero =>
        intro location _ short
        rw [List.length_eq_zero_iff.1 (Nat.le_zero.1 short)]
        rfl
    | succ count ih =>
        intro location named short
        rcases List.eq_nil_or_concat location with rfl | ⟨above, last, split⟩
        · rfl
        · rw [List.concat_eq_append] at split
          subst split
          have room : above.length ≤ count := by
            simpa using short
          rw [Path.ancestorsWithin, parent?_path named, Location.ancestors_concat]
          simp [ih above (named_above named) room]
  exact within _ location named (length_le_text named)

end Location

/-! ## The same names beside both -/

/-- The target, named by a path. -/
def Target.spelled : Target → Target
  | .located place => .written (Location.path place)
  | .written path => .written path

theorem Disk.ensureDirectory_spelled (disk : Disk) (named : ∀ name ∈ directory, IsName name) :
    disk.ensureDirectory ((Location.ancestors directory).map fun top => (Location.path top).route) =
      disk.ensureDirectory ((Location.ancestors directory).map Location.route) := by
  have here : disk.walkTo true linkLimit disk.start ["."] = disk.walkTo true linkLimit disk.start [] := by
    rfl
  induction directory using List.reverseRecOn with
  | nil =>
      have bare : (Location.path []).route.bareNames = (Location.route []).bareNames := by decide
      have creates : disk.createDirectory (Location.path []).route =
          disk.createDirectory (Location.route []) := by
        unfold createDirectory
        rw [bare]
        rfl
      have asks : disk.isDirectory (Location.path []).route = disk.isDirectory (Location.route []) := by
        have names : (Location.path []).route.names = ["."] := by decide
        unfold isDirectory inspect locate
        rw [names, here]
        rfl
      simp only [Location.ancestors, List.map_cons, List.map_nil, ensureDirectory, creates, asks]
      rfl
  | append_singleton above last ih =>
      have later := ih (Location.named_above named)
      rw [Location.ancestors_concat, List.map_cons, List.map_cons, Location.route_path named (by simp)]
      simp only [ensureDirectory, later]

section Beside

variable (named : ∀ other ∈ directory ++ [name], IsName other)

include named

namespace Target

theorem route_spelled :
    (located (directory ++ [name])).spelled.route = (located (directory ++ [name])).route :=
  Location.route_path named (by simp)

theorem renamed_spelled {other : String} (isName : IsName other) :
    (located (directory ++ [name])).spelled.renamed other =
      (located (directory ++ [other])).spelled := by
  simp only [spelled, renamed, Location.withFileName_path named isName]

theorem name_spelled : (located (directory ++ [name])).spelled.name = name := by
  simp [spelled, Target.name, Location.fileName?_path named]

theorem lock_spelled :
    (located (directory ++ [name])).spelled.lock = (located (directory ++ [name])).lock.spelled := by
  rw [lock, name_spelled named, renamed_spelled named (isName_lock (named name (by simp))), lock_located]

theorem beside_spelled {other : String} (isName : IsName other) :
    (located (directory ++ [name])).spelled.beside other =
      (located (directory ++ [other])).spelled := by
  simp only [spelled, beside, Location.parent?_path named, Option.getD_some,
    Location.path_join (Location.named_above named) isName]

theorem ensureDirectory_spelled (disk : Disk) :
    disk.ensureDirectory (located (directory ++ [name])).spelled.directories =
      disk.ensureDirectory (located (directory ++ [name])).directories := by
  have above : ∀ other ∈ directory, IsName other := Location.named_above named
  rw [directories_located, ← Disk.ensureDirectory_spelled disk above]
  simp only [spelled, directories, Location.parent?_path named, Option.map_some, Option.getD_some,
    Location.ancestors_path above, List.map_map]
  rfl

end Target

namespace Lock

theorem grave_spelled {token : String} (isName : IsName (name ++ ".stale-" ++ token)) :
    grave (Target.located (directory ++ [name])).spelled token =
      (grave (.located (directory ++ [name])) token).spelled := by
  rw [grave, Target.name_spelled named, Target.renamed_spelled named isName, Target.grave_located]

theorem take_spelled (holder : Holder) (number timeout : Nat) (disk : Disk) :
    let token := holder.text ++ "-" ++ toString number
    take (Target.located (directory ++ [name])).spelled token timeout disk =
      take (.located (directory ++ [name])) token timeout disk := by
  have isName := isName_grave (named name (by simp)) holder number
  have namedGrave := Location.named_beside named isName
  have sameName : (Target.located (directory ++ [name])).name = name := by simp [Target.name]
  dsimp only
  unfold take breakStale
  rw [grave_spelled named isName, Target.grave_located, Target.route_spelled named,
    Target.route_spelled namedGrave, Target.name_spelled named, sameName]

theorem acquire_spelled (timeout : Nat) (host : Host) :
    acquire (Target.located (directory ++ [name])).spelled timeout host =
      match acquire (.located (directory ++ [name])) timeout host with
      | (.ok lock, later) => (.ok { lock with target := lock.target.spelled }, later)
      | (.error error, later) => (.error error, later) := by
  have namedLock := Location.named_beside named (isName_lock (named name (by simp)))
  have ensures : Action.ensureDirectory
      (Target.located (directory ++ [name])).spelled.lock.directories =
        Action.ensureDirectory (Target.located (directory ++ [name])).lock.directories := by
    funext host
    unfold Action.ensureDirectory
    rw [Target.lock_spelled named, Target.lock_located, Target.ensureDirectory_spelled namedLock]
  unfold acquire
  rw [ensures]
  simp only [Action.bind_apply]
  rcases Action.ensureDirectory (Target.located (directory ++ [name])).lock.directories host with
    ⟨outcome, ready⟩
  cases outcome with
  | error error => rfl
  | ok _ =>
      have taken := take_spelled namedLock ready.holder ready.tokens timeout ready.disk
      dsimp only [Action.freshToken] at taken ⊢
      rw [Target.lock_spelled named, Target.lock_located, taken]
      cases take (.located (directory ++ [name ++ ".lock"])) _ timeout ready.disk <;> rfl

end Lock

namespace StagedWrite

/-- The staged write, with its target and its temporary file named by paths. -/
def spelled (staged : StagedWrite) : StagedWrite :=
  ⟨staged.target.spelled, staged.temporary.spelled⟩

theorem freeName?_spelled (disk : Disk) :
    freeName? disk (Target.located (directory ++ [name])).spelled =
      (freeName? disk (.located (directory ++ [name]))).map Target.spelled := by
  have beside : ∀ number, (Target.located (directory ++ [name])).spelled.beside (temporaryName number) =
      ((Target.located (directory ++ [name])).beside (temporaryName number)).spelled := by
    intro number
    rw [Target.beside_spelled named (isName_temporaryName number), Target.beside_located]
  have free : ∀ number,
      isFree disk ((Target.located (directory ++ [name])).beside (temporaryName number)).spelled =
        isFree disk ((Target.located (directory ++ [name])).beside (temporaryName number)) := by
    intro number
    have namedToo := Location.named_beside named (isName_temporaryName number)
    rw [Target.beside_located]
    unfold isFree
    rw [Target.route_spelled namedToo]
  unfold freeName?
  simp only [beside, free, Option.map_map]
  rfl

theorem stage_spelled (content : ByteArray) (host : Host) :
    stage (Target.located (directory ++ [name])).spelled content host =
      match stage (.located (directory ++ [name])) content host with
      | (.ok staged, later) => (.ok staged.spelled, later)
      | (.error error, later) => (.error error, later) := by
  have ensures : Action.ensureDirectory (Target.located (directory ++ [name])).spelled.directories =
      Action.ensureDirectory (Target.located (directory ++ [name])).directories := by
    funext host
    unfold Action.ensureDirectory
    rw [Target.ensureDirectory_spelled named]
  unfold stage
  rw [ensures]
  simp only [Action.bind_apply]
  rcases Action.ensureDirectory (Target.located (directory ++ [name])).directories host with
    ⟨outcome, ready⟩
  cases outcome with
  | error error => rfl
  | ok _ =>
      dsimp only
      unfold writeTemporary
      rw [freeName?_spelled named]
      cases found : freeName? ready.disk (.located (directory ++ [name])) with
      | none => rfl
      | some temporary =>
          obtain ⟨number, _, beside⟩ := Option.map_eq_some_iff.1 found
          have namedToo := Location.named_beside named (isName_temporaryName number)
          rw [Target.beside_located] at beside
          subst beside
          dsimp only [Option.map_some]
          rw [Target.route_spelled namedToo]
          cases ready.disk.createFile _ content <;> rfl

end StagedWrite

theorem Lock.release_spelled {lock : Lock} (target : lock.target = .located (directory ++ [name])) :
    release { lock with target := lock.target.spelled } = lock.release := by
  have namedLock := Location.named_beside named (isName_lock (named name (by simp)))
  unfold release drop isHeld
  simp only [target, Target.lock_spelled named, Target.lock_located, Target.route_spelled namedLock]

namespace Document

variable {α : Type} [Document α]

theorem stage_spelled {lock : Lock} (target : lock.target = .located (directory ++ [name]))
    (document : α) (host : Host) :
    stage { lock with target := lock.target.spelled } document host =
      match stage lock document host with
      | (.ok (kept, staged), later) => (.ok (kept, staged.spelled), later)
      | (.error error, later) => (.error error, later) := by
  rw [stage_apply, stage_apply]
  simp only [target, Target.route_spelled named, Action.bind_apply, StagedWrite.stage_spelled named]
  rcases StagedWrite.stage (.located (directory ++ [name])) _ host with ⟨outcome, later⟩
  cases outcome <;> rfl

theorem commit_spelled {lock : Lock} {document kept : α} {staged : StagedWrite} {host later : Host}
    (target : lock.target = .located (directory ++ [name]))
    (ran : stage lock document host = (.ok (kept, staged), later)) :
    staged.spelled.commit = staged.commit := by
  obtain ⟨_, wrote⟩ := exists_of_stage ran
  obtain ⟨_, _, _, wrote, _⟩ := StagedWrite.exists_of_stage wrote
  rw [target] at wrote
  obtain ⟨number, placed, temporary, _⟩ := StagedWrite.exists_of_writeTemporary wrote
  have namedToo := Location.named_beside named (isName_temporaryName number)
  unfold StagedWrite.commit StagedWrite.discard StagedWrite.spelled
  simp only [placed, temporary, Target.route_spelled named, Target.route_spelled namedToo]

/-- A save makes the same calls, whether its target is named by a location or by the path of it. -/
theorem saveCalls_spelled (document : α) (timeout : Nat) :
    saveCalls (Target.located (directory ++ [name])).spelled document timeout =
      saveCalls (.located (directory ++ [name])) document timeout := by
  funext host
  simp only [saveCalls, Lock.holdingCalls, bind, Calls.call, Lock.acquire_spelled named]
  cases acquired : Lock.acquire (.located (directory ++ [name])) timeout host with
  | mk outcome locked =>
      cases outcome with
      | error error => rfl
      | ok lock =>
          have target := Lock.target_of_acquire acquired
          simp only [Lock.release_spelled named target, Calls.ensuring, stage_spelled named target]
          cases ran : stage lock document locked with
          | mk outcome later =>
              cases outcome with
              | error error => rfl
              | ok written => simp only [commit_spelled named target ran]

end Document

end Beside

end SourceBaseline
