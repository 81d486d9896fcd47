import Mathlib.Logic.Relation
import SourceBaseline.Engine
import SourceBaseline.Proofs.Disk.Ways
import SourceBaseline.Proofs.Staging

/-!
# Runs as single steps

Whatever is written, it is written by four changes of the disk, by whichever routes. What each of
them preserves, a whole run preserves, whether it succeeds or is given up.
-/

set_option autoImplicit false

namespace SourceBaseline

namespace Disk

/-- A change by which documents, locks and temporary files are written. -/
inductive Step (before after : Disk) : Prop where
  | createFile {route : Route} {content : ByteArray} :
      before.createFile route content = .ok after → Step before after
  | createDirectory {route : Route} : before.createDirectory route = .ok after → Step before after
  | removeFile {route : Route} : before.removeFile route = .ok after → Step before after
  | rename {route newRoute : Route} : before.rename route newRoute = .ok after → Step before after

/-- Some changes, one after the other. -/
def Steps : Disk → Disk → Prop :=
  Relation.ReflTransGen Step

instance : IsPreorder Disk Steps where
  refl _ := .refl
  trans _ _ _ := .trans

variable {disk before after : Disk}

/-- What every directory that is created on its own does to the disk, those do together that are
created on the way to another. -/
theorem relates_ensureDirectory {relation : Disk → Disk → Prop} [IsPreorder Disk relation]
    (creates : ∀ {before after : Disk} {route : Route}, before.createDirectory route = .ok after →
      relation before after) (routes : List Route) :
    relation disk (disk.ensureDirectory routes).2 := by
  induction routes generalizing disk with
  | nil => exact refl_of relation disk
  | cons route parents ih =>
      rw [ensureDirectory]
      split
      next => exact refl_of relation disk
      next =>
        dsimp only
        split
        next created made => exact creates made
        next =>
          have above := @ih disk
          split
          next ensured =>
            rw [ensured] at above
            exact above
          next changed ensured =>
            rw [ensured] at above
            split
            next created made => exact trans_of relation above (creates made)
            next => exact above
        next => exact refl_of relation disk

theorem steps_ensureDirectory (routes : List Route) :
    disk.Steps (disk.ensureDirectory routes).2 :=
  relates_ensureDirectory (fun created => .single (.createDirectory created)) routes

/-! ## Directories -/

/-- Every directory stayed. -/
def KeepsDirectories (before after : Disk) : Prop :=
  ∀ location, before.find? location = some .directory → after.find? location = some .directory

theorem Becomes.keepsDirectories {place : Location} {value : Option Entry}
    (becomes : before.Becomes place value after) (leaf : before.find? place ≠ some .directory) :
    before.KeepsDirectories after := by
  intro location stands
  rw [becomes location, if_neg, stands]
  rintro rfl
  exact leaf stands

theorem Step.keepsDirectories (step : Step before after) : before.KeepsDirectories after := by
  cases step with
  | createFile created =>
      obtain ⟨_, _, _, free, becomes⟩ := exists_of_createFile created
      exact becomes.keepsDirectories (by rw [free]; simp)
  | createDirectory created =>
      obtain ⟨_, _, created⟩ := bind_eq_ok_iff.1 created
      obtain ⟨_, free, becomes⟩ := becomes_of_create created
      exact becomes.keepsDirectories (by rw [free]; simp)
  | removeFile removed =>
      obtain ⟨_, _, _, _, stands, leaf, becomes⟩ := exists_of_removeFile removed
      exact becomes.keepsDirectories (by rw [stands]; simpa using leaf)
  | rename renamed =>
      obtain ⟨_, _, _, _, _, _, _, _, stood, leaf, newLeaf, moves⟩ := exists_of_rename renamed
      intro location stands
      rw [moves location, if_neg, if_neg, stands]
      · rintro rfl
        exact leaf (Option.some.inj (stood.symm.trans stands))
      · rintro rfl
        exact newLeaf stands

theorem Steps.keepsDirectories (steps : before.Steps after) : before.KeepsDirectories after := by
  intro location stands
  induction steps with
  | refl => exact stands
  | tail _ step kept => exact step.keepsDirectories location kept

end Disk

/-! ## Runs -/

variable {host : Host} {disk after : Disk} {timeout : Nat}

namespace Lock

variable {file target : Target} {token : String}

theorem steps_breakStale (broken : breakStale file token disk = some after) : disk.Steps after := by
  rw [breakStale] at broken
  split at broken
  next moved _ renamed =>
    have step : Disk.Steps disk moved := .single (.rename renamed)
    exact step.tail (.removeFile (toOption_eq_some_iff.1 broken))
  next => cases broken

theorem steps_take (taken : take file token timeout disk = .ok after) : disk.Steps after := by
  rw [take] at taken
  split at taken
  next created =>
    cases taken
    exact .single (.createFile created)
  next =>
    split at taken
    next broken => exact (steps_breakStale broken).tail (.createFile (Outcome.ofDisk_eq_ok_iff.1 taken))
    next => cases taken
  next => cases taken

theorem steps_acquire : (acquire target timeout).Relates Disk.Steps host := by
  refine Action.Relates.bind (Disk.steps_ensureDirectory _) fun _ ready _ => ?_
  refine (Action.relates_of_same rfl).bind fun token counted given => ?_
  unfold Action.Relates
  dsimp only
  split
  next taken => exact steps_take taken
  next => exact .refl

theorem steps_release (lock : Lock) : lock.release.Relates Disk.Steps host := by
  refine Action.relates_change fun after dropped => ?_
  cases dropped
  unfold drop
  split
  next =>
    cases removed : host.disk.removeFile lock.target.lock.route with
    | error => exact .refl
    | ok cleared => exact .single (.removeFile removed)
  next => exact .refl

theorem steps_holding {α : Type} {body : Lock → Action α}
    (steps : ∀ lock later, (body lock).Relates Disk.Steps later) :
    (holding target timeout body).Relates Disk.Steps host :=
  steps_acquire.bind fun lock later _ =>
    (steps lock later).ensuring fun _ _ _ => steps_release lock

end Lock

namespace StagedWrite

variable {staged : StagedWrite} {target : Target} {content : ByteArray}

theorem steps_stage : (stage target content).Relates Disk.Steps host := by
  refine Action.Relates.bind (Disk.steps_ensureDirectory _) fun _ ready _ => ?_
  unfold Action.Relates
  dsimp only
  unfold writeTemporary
  cases freeName? ready.disk target with
  | none => exact .refl
  | some temporary =>
      dsimp only
      cases created : ready.disk.createFile temporary.route content with
      | error => exact .refl
      | ok written => exact .single (.createFile created)

theorem steps_discard : staged.discard.Relates Disk.Steps host :=
  Action.relates_change fun _ removed => .single (.removeFile removed)

theorem steps_commit : staged.commit.Relates Disk.Steps host := by
  refine Action.Relates.onError ?_ fun _ _ _ => steps_discard
  exact Action.relates_change fun _ renamed => .single (.rename renamed)

end StagedWrite

theorem Document.steps_stage {α : Type} [Document α] (lock : Lock) (document : α) :
    (stage lock document).Relates Disk.Steps host := by
  unfold Action.Relates
  rw [stage_apply]
  exact StagedWrite.steps_stage.bind fun _ _ _ => Action.relates_of_same rfl

namespace Engine

variable {engine : Engine}

theorem steps_replaceBoth (lock lockToo : Lock) (checksums : ChecksumBaseline)
    (symbols : SymbolBaseline) : (replaceBoth lock lockToo checksums symbols).Relates Disk.Steps host := by
  refine (Document.steps_stage lock checksums).bind fun first _ _ => ?_
  refine Action.Relates.bind ?_ fun second _ _ => ?_
  · exact (Document.steps_stage lockToo symbols).onError fun _ _ _ => StagedWrite.steps_discard
  refine Action.Relates.bind ?_ fun _ _ _ => ?_
  · exact StagedWrite.steps_commit.onError fun _ _ _ => StagedWrite.steps_discard
  · exact StagedWrite.steps_commit.bind fun _ _ _ => Action.relates_of_same rfl

theorem steps_holding {α : Type} {name : String} {body : Lock → Action α}
    (steps : ∀ lock later, (body lock).Relates Disk.Steps later) :
    (engine.holding name body).Relates Disk.Steps host :=
  Action.relates_read_bind fun _ _ => Lock.steps_holding steps

theorem steps_replaceBaselines (expectation : Expectation) :
    (engine.replaceBaselines expectation).Relates Disk.Steps host := by
  refine Action.relates_read_bind fun _ _ => Action.relates_read_bind fun taken _ => ?_
  refine steps_holding fun lock _ => steps_holding fun lockToo _ => ?_
  refine Action.relates_read_bind fun _ _ => ?_
  exact (steps_replaceBoth lock lockToo _ _).bind fun _ _ _ => Action.relates_of_same rfl

end Engine

end SourceBaseline
