import SourceBaseline.Proofs.Disk.Resemblance
import SourceBaseline.Proofs.Engine.Stability
import SourceBaseline.Proofs.Taking

/-!
# Files that outlast a run

A run takes away nothing but what stands in the place of a baseline when that is locked, and a lock
that may be stale. All other files outlast it, and every way to them, whether it succeeds or fails.
-/

set_option autoImplicit false

namespace SourceBaseline

theorem Disk.read_of_locate {disk : Disk} {route : Route} {place : Location} {content : ByteArray}
    {age : Nat} (located : disk.locate route = .ok place)
    (stands : disk.find? place = some (.file content age)) : disk.read route = .ok content := by
  unfold read inspect
  rw [located]
  simp only [bind, Except.bind, stands]

namespace Walk

theorem exists_of_tracked {walk : Walk} {disk : Disk} {deadline : Deadline} {file : TrackedFile}
    (named : disk.Named) (tracked : .ok file ∈ walk.items disk deadline) :
    ∃ place content age, disk.locate file.absolute.route = .ok place ∧
      disk.find? place = some (.file content age) := by
  obtain ⟨names, entry, listed, _, found⟩ := tracked?_of_mem_visit tracked
  obtain ⟨inner, stands⟩ := Disk.mem_below_iff.1 listed
  have tracks := tracks_of_tracked? named inner stands found
  obtain ⟨relative, absolute⟩ := file
  have inspected : ∃ content age, disk.inspect absolute.route = .ok (.file content age) := by
    cases tracks with
    | file stands fits =>
        exact ⟨_, _, Disk.inspect_of_stands (named.of_stands stands) stands rfl fits⟩
    | link _ _ isFile =>
        unfold Disk.isFile at isFile
        split at isFile
        next found => exact ⟨_, _, found⟩
        next => cases isFile
  obtain ⟨content, age, inspected⟩ := inspected
  obtain ⟨place, located, looked⟩ := bind_eq_ok_iff.1 inspected
  refine ⟨place, content, age, located, ?_⟩
  split at looked
  next stands =>
    cases looked
    exact stands
  next => cases looked

end Walk

namespace Engine

variable {engine : Engine} {host later : Host} {location : Location} {entry : Entry} {name : String}

/-- The directory in which a baseline is found, if it is, lies behind no link. -/
def Anchored (engine : Engine) (disk : Disk) (name : String) : Prop :=
  ∀ place, engine.baselinePlace disk name = .ok place → (Target.located place).Sheltered [] disk

theorem Anchored.changes (anchored : engine.Anchored host.disk name) :
    Disk.ChangesBelow [] host.disk (engine.lockedFor name host).disk := by
  rw [lockedFor]
  split
  next place placed => exact Lock.stays_acquire (anchored place placed)
  next => exact .refl [] host.disk

/-- What stands there may be overwritten or removed when the baselines are locked, one after the
other, and written. -/
inductive Takes (engine : Engine) (host : Host) : Location → Prop where
  | checksums {place location : Location} :
      engine.baselinePlace host.disk checksumBaselineName = .ok place →
      (Target.located place).Takes host location → Takes engine host location
  | symbols {place location : Location} :
      engine.baselinePlace (engine.lockedFor checksumBaselineName host).disk symbolBaselineName =
        .ok place →
      (Target.located place).Takes (engine.lockedFor checksumBaselineName host) location →
      Takes engine host location

theorem leaves_replaceBoth_of_stands {lock lockToo : Lock} (checksums : ChecksumBaseline)
    (symbols : SymbolBaseline) (sheltered : lock.target.Sheltered [] host.disk)
    (shelteredToo : lockToo.target.Sheltered [] host.disk)
    (stands : host.disk.find? location = some entry) (notFirst : lock.target ≠ .located location)
    (notSecond : lockToo.target ≠ .located location) :
    (replaceBoth lock lockToo checksums symbols).Relates (Disk.Leaves location) host := by
  have ran : Document.stage lock checksums host = (_, _) := Prod.mk.eta.symm
  refine Action.Relates.bind (Document.leaves_stage_of_stands sheltered stands ran).1 ?_
  rintro ⟨kept, write⟩ one staged
  obtain ⟨leaves, unused⟩ := Document.leaves_stage_of_stands sheltered stands staged
  have pending := Document.pending_of_stage sheltered staged
  have shelteredThen := shelteredToo.later leaves.changes
  have standsThen := leaves.same.trans stands
  have ranToo : Document.stage lockToo symbols one = (_, _) := Prod.mk.eta.symm
  have stagesToo := Document.leaves_stage_of_stands shelteredThen standsThen ranToo
  have stagesBoth : (Action.onError (Document.stage lockToo symbols) write.discard).Relates
      (Disk.Leaves location) one := by
    refine Action.Relates.onError stagesToo.1 fun _ later refused => ?_
    have changes := (Document.leaves_stage_of_stands shelteredThen standsThen refused).1.changes
    exact StagedWrite.leaves_discard (pending.later changes) (unused _ _ rfl)
  refine stagesBoth.bind ?_
  rintro ⟨keptToo, writeToo⟩ two stagedToo
  have changes := (stagesBoth.of_ran stagedToo).changes
  have stagedToo := Action.eq_ok_of_onError stagedToo
  obtain ⟨_, unusedToo⟩ := Document.leaves_stage_of_stands shelteredThen standsThen stagedToo
  have pendingToo := Document.pending_of_stage shelteredThen stagedToo
  have commits := StagedWrite.leaves_commit_onError (pending.later changes) pendingToo
    (unused _ _ rfl) (unusedToo _ _ rfl) (Document.target_of_stage staged ▸ notFirst)
  refine commits.bind fun _ three committed => ?_
  refine Action.Relates.bind ?_ fun _ _ _ => Action.relates_of_same rfl
  exact StagedWrite.leaves_commit (pendingToo.later (commits.of_ran committed).changes)
    (unusedToo _ _ rfl) (Document.target_of_stage stagedToo ▸ notSecond)

section Holding

variable {α : Type} {body : Lock → Action α}

theorem leaves_holding_of_stands (anchored : engine.Anchored host.disk name)
    (stands : host.disk.find? location = some entry)
    (untaken : ∀ place, engine.baselinePlace host.disk name = .ok place →
      ¬ (Target.located place).Takes host location)
    (leaves : ∀ lock, lock.target.Sheltered [] (engine.lockedFor name host).disk →
      lock.target ≠ .located location →
      (engine.lockedFor name host).disk.find? location = some entry →
      (body lock).Relates (Disk.Leaves location) (engine.lockedFor name host)) :
    (engine.holding name body).Relates (Disk.Leaves location) host := by
  apply Action.relates_read_bind
  intro place placed
  have sheltered := anchored place placed
  have ran : Lock.acquire (.located place) engine.settings.lockTimeout host = (_, _) :=
    Prod.mk.eta.symm
  have acquires := Lock.leaves_acquire_of_stands sheltered stands (untaken place placed) ran
  refine Action.Relates.bind acquires.1 fun lock locked acquired => ?_
  obtain ⟨leavesHost, elsewhere⟩ :=
    Lock.leaves_acquire_of_stands sheltered stands (untaken place placed) acquired
  have target := Lock.target_of_acquire acquired
  have same : engine.lockedFor name host = locked := by
    rw [lockedFor, placed]
    exact congrArg Prod.snd acquired
  subst same
  have shelteredThen := target ▸ sheltered.later leavesHost.changes
  have notOwn : lock.target ≠ .located location := by
    rw [target]
    rintro ⟨⟩
    exact untaken _ placed (.own rfl)
  have worked := leaves lock shelteredThen notOwn (leavesHost.same.trans stands)
  refine worked.ensuring fun _ ended ran => ?_
  apply Lock.leaves_drop (shelteredThen.later (worked.of_ran ran).changes)
  rw [target]
  exact elsewhere lock rfl

end Holding

/-- What is taken by a run that writes under both locks is taken for one baseline or the other. -/
theorem leaves_replaceBaselines_of_stands {expectation : Expectation}
    (checksums : engine.Anchored host.disk checksumBaselineName)
    (symbols : engine.Anchored (engine.lockedFor checksumBaselineName host).disk symbolBaselineName)
    (stands : host.disk.find? location = some entry) (untaken : ¬ engine.Takes host location) :
    (engine.replaceBaselines expectation).Relates (Disk.Leaves location) host := by
  refine Action.relates_read_bind fun _ _ => Action.relates_read_bind fun taken _ => ?_
  apply leaves_holding_of_stands checksums stands fun _ placed takes => untaken (.checksums placed takes)
  intro lock sheltered notFirst stands
  refine leaves_holding_of_stands symbols stands (fun _ placed takes => untaken (.symbols placed takes))
    fun lockToo shelteredToo notSecond standsToo => ?_
  have written := leaves_replaceBoth_of_stands taken.1
    (.fresh (Location.path engine.boundary.root).text taken.2.symbols)
    (sheltered.later symbols.changes) shelteredToo standsToo notFirst notSecond
  exact Action.relates_read_bind fun _ _ => written.bind fun _ _ _ => Action.relates_of_same rfl

/-- Whether a run that writes baselines succeeds or fails, what stood before stands afterwards, but
for files and links that are taken, and a file that was tracked holds the same wherever no link is
taken. -/
theorem files_outlast_run {run : Action BaselineSummary}
    (writes : run = engine.update ∨ ∃ reset, run = engine.create reset)
    {outcome : Outcome BaselineSummary} (ran : run host = (outcome, later))
    (checksums : engine.Anchored host.disk checksumBaselineName)
    (symbols : engine.Anchored (engine.lockedFor checksumBaselineName host).disk
      symbolBaselineName) :
    (∀ location entry, host.disk.find? location = some entry →
      entry = .directory ∨ ¬ engine.Takes host location →
      later.disk.find? location = some entry) ∧
    (host.disk.Named →
      (∀ location target, host.disk.find? location = some (.link target) →
        ¬ engine.Takes host location) →
      ∀ deadline file, .ok file ∈ engine.walk.items host.disk deadline →
        ∃ place content, host.disk.locate file.absolute.route = .ok place ∧
          host.disk.read file.absolute.route = .ok content ∧
          (¬ engine.Takes host place → later.disk.read file.absolute.route = .ok content)) := by
  obtain ⟨expectation, rfl⟩ := replaces_of_writes writes
  have outlasts : ∀ location entry, host.disk.find? location = some entry →
      entry = .directory ∨ ¬ engine.Takes host location →
      later.disk.find? location = some entry := by
    rintro location entry stands (rfl | untaken)
    · exact Disk.Steps.keepsDirectories ((steps_replaceBaselines expectation).of_ran ran) location stands
    · have leaves : (engine.replaceBaselines expectation).Relates (Disk.Leaves location) host :=
        leaves_replaceBaselines_of_stands checksums symbols stands untaken
      exact (leaves.of_ran ran).same.trans stands
  refine ⟨outlasts, fun named links deadline file tracked => ?_⟩
  obtain ⟨place, content, age, located, stands⟩ := Walk.exists_of_tracked named tracked
  refine ⟨place, content, located, Disk.read_of_locate located stands, fun untaken => ?_⟩
  suffices retains : Disk.Retains (engine.Takes host) host.disk later.disk from
    Disk.read_of_locate (retains.locate located untaken) (outlasts place _ stands (.inr untaken))
  intro location entry stands
  cases entry with
  | directory => exact .inl (outlasts location _ stands (.inl rfl))
  | link target => exact .inl (outlasts location _ stands (.inr (links location target stands)))
  | file content age =>
      by_cases taken : engine.Takes host location
      · exact .inr ⟨content, age, rfl, .inl taken⟩
      · exact .inl (outlasts location _ stands (.inr taken))

/-! ## Baselines under their own names -/

section Beside

variable {directory : Location} (beside : engine.SideBySide host directory)

include beside

theorem SideBySide.anchored : engine.Anchored host.disk checksumBaselineName :=
  fun place placed => ⟨directory, _, congrArg Target.located (beside.checksums place placed), by decide,
    beside.shelters⟩

theorem SideBySide.anchored_locked :
    engine.Anchored (engine.lockedFor checksumBaselineName host).disk symbolBaselineName :=
  fun place placed => ⟨directory, _, congrArg Target.located (beside.symbolsLocked place placed),
    by decide, beside.shelters_locked⟩

theorem SideBySide.exists_of_takes (takes : engine.Takes host location) :
    ∃ name, location = directory ++ [name] := by
  have inside : ∀ {name : String} {between : Host},
      (Target.located (directory ++ [name])).Takes between location →
        ∃ name, location = directory ++ [name] := by
    intro name between takes
    cases takes with
    | own located =>
        cases located
        exact ⟨_, rfl⟩
    | lock located =>
        rw [Target.lock_located] at located
        cases located
        exact ⟨_, rfl⟩
    | grave _ _ aside =>
        rw [Target.lock_located, Target.grave_located] at aside
        cases aside
        exact ⟨_, rfl⟩
  cases takes with
  | checksums placed takes =>
      rw [beside.checksums _ placed] at takes
      exact inside takes
  | symbols placed takes =>
      rw [beside.symbolsLocked _ placed] at takes
      exact inside takes

end Beside

theorem files_outlast_run_note :
    (plainEngine.create false (plainHost noteDisk)).1.toOption = some ⟨1, 0, []⟩ ∧
      plainEngine.Anchored noteDisk checksumBaselineName ∧
      plainEngine.Anchored (plainEngine.lockedFor checksumBaselineName (plainHost noteDisk)).disk
        symbolBaselineName ∧
      noteDisk.Named ∧
      (∀ location entry, noteDisk.find? location = some entry →
        ¬ plainEngine.Takes (plainHost noteDisk) location) ∧
      (plainEngine.create false (plainHost noteDisk)).2.disk.read (Location.route ["project", "note"]) =
        .ok "kept".toUTF8 := by
  have named : noteDisk.Named := by decide
  have tracked : plainEngine.walk.enumerate noteDisk (.start "check" none) =
      .ok [⟨"note", ["project", "note"]⟩] := by
    decide +kernel
  have beside : plainEngine.SideBySide (plainHost noteDisk) plainMemory :=
    sideBySide_plain (by decide) (by decide)
  have untaken : ∀ location entry, noteDisk.find? location = some entry →
      ¬ plainEngine.Takes (plainHost noteDisk) location := by
    intro location entry stands takes
    obtain ⟨name, rfl⟩ := beside.exists_of_takes takes
    have missing : noteDisk.find? (plainMemory ++ [name]) = none :=
      Disk.find?_below_leaf (by decide) (by simp)
    exact nomatch missing.symm.trans stands
  refine ⟨written_note, beside.anchored, beside.anchored_locked, named, untaken, ?_⟩
  obtain ⟨_, reads⟩ := files_outlast_run (.inr ⟨false, rfl⟩) (Action.eq_of_toOption written_note)
    beside.anchored beside.anchored_locked
  obtain ⟨place, content, located, read, kept⟩ := reads named
    (fun location _ stands => untaken location _ stands) _ _ (Walk.mem_of_mapM tracked (.head _))
  have here : noteDisk.locate (Location.route ["project", "note"]) = .ok ["project", "note"] ∧
      noteDisk.find? ["project", "note"] = some (.file "kept".toUTF8 0) := by
    decide
  cases located.symm.trans here.1
  cases read.symm.trans (Disk.read_of_locate here.1 here.2)
  exact kept (untaken _ _ here.2)

/-- A project in which the checksum baseline is a link to a file that is tracked. -/
def leadingDisk : Disk :=
  let kept := Boundary.leavingDisk.put ["project"] "app.txt" (.file "mine".toUTF8 0)
  let stated := kept.put ["project"] ".driftline" .directory
  (stated.put ["project", ".driftline"] "memory" .directory).put plainMemory "repo-baseline.json"
    (.link ⟨"../../app.txt"⟩)

/-- The file to which the link leads is overwritten by the baseline. -/
theorem create_overwrites_tracked :
    .ok ⟨"app.txt", ["project", "app.txt"]⟩ ∈
        plainEngine.walk.items leadingDisk (.start "snapshot" none) ∧
      leadingDisk.read (Location.route ["project", "app.txt"]) = .ok "mine".toUTF8 ∧
      (plainEngine.create true (plainHost leadingDisk)).1.isOk = true ∧
      (plainEngine.create true (plainHost leadingDisk)).2.disk.read
        (Location.route ["project", "app.txt"]) ≠ .ok "mine".toUTF8 := by
  have evaluated : plainEngine.walk.enumerate leadingDisk (.start "snapshot" none) =
        .ok [⟨"app.txt", ["project", "app.txt"]⟩] ∧
      leadingDisk.read (Location.route ["project", "app.txt"]) = .ok "mine".toUTF8 ∧
      (plainEngine.create true (plainHost leadingDisk)).1.isOk = true ∧
      (plainEngine.create true (plainHost leadingDisk)).2.disk.read
        (Location.route ["project", "app.txt"]) ≠ .ok "mine".toUTF8 := by
    decide +kernel
  exact ⟨Walk.mem_of_mapM evaluated.1 (.head _), evaluated.2⟩

end Engine

end SourceBaseline
