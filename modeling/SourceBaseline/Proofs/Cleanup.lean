import SourceBaseline.Proofs.Renewal
import SourceBaseline.Proofs.Taking

/-!
# What is left behind

Locks and staged writes put files beside their targets and take them away again, whatever the work
between comes to. What is lent in this way is paid back: afterwards no file or link is new but in a
place that was written, and none is gone but a lock that was stale.
-/

set_option autoImplicit false

namespace SourceBaseline

/-! ## Before and after -/

/-- How what stands at a location may differ afterwards. A directory may be new, a place that is
written may hold a file or link, and a lock that was stale may be gone. -/
inductive Remains (written stale : Prop) : Option Entry → Option Entry → Prop where
  | same {standing} : Remains written stale standing standing
  | built : Remains written stale none (some .directory)
  | renewed {before entry} :
      written → before ≠ some .directory → entry ≠ .directory →
      Remains written stale before (some entry)
  | cleared {entry after} :
      stale → entry ≠ .directory → (∀ other, after = some other → other = .directory) →
      Remains written stale (some entry) after

namespace Remains

variable {written stale : Prop} {before between after : Option Entry} {entry : Entry}

theorem trans (first : Remains written stale before between)
    (second : Remains written stale between after) : Remains written stale before after := by
  cases first with
  | same => exact second
  | built =>
      cases second with
      | same => exact .built
      | renewed _ leaf => exact absurd rfl leaf
      | cleared _ leaf => exact absurd rfl leaf
  | renewed replaced free leaf =>
      cases second with
      | same => exact .renewed replaced free leaf
      | renewed _ _ other => exact .renewed replaced free other
      | cleared broken _ gone =>
          cases before with
          | some stood => exact .cleared broken (fun same => free (congrArg some same)) gone
          | none =>
              cases after with
              | none => exact .same
              | some stands =>
                  cases gone stands rfl
                  exact .built
  | cleared broken leaf gone =>
      cases second with
      | same => exact .cleared broken leaf gone
      | built => exact .cleared broken leaf fun _ same => (Option.some.inj same).symm
      | renewed replaced _ other => exact .renewed replaced (by simpa using leaf) other
      | cleared _ other _ => exact absurd (gone _ rfl) other

/-- Where something was lent to a place in which nothing stood, or a lock that was stale, it is paid
back if afterwards nothing stands there but a directory or what was written. -/
theorem of_lent (lent : before = none ∨ stale ∧ ∃ entry, before = some entry ∧ entry ≠ .directory)
    (paid : ∀ entry, after = some entry → entry = .directory ∨ written) :
    Remains written stale before after := by
  have free : before ≠ some .directory := by
    rcases lent with rfl | ⟨_, entry, rfl, leaf⟩
    · exact nofun
    · simpa using leaf
  cases after with
  | none =>
      rcases lent with rfl | ⟨broken, entry, rfl, leaf⟩
      · exact .same
      · exact .cleared broken leaf nofun
  | some stands =>
      by_cases directory : stands = .directory
      · subst directory
        rcases lent with rfl | ⟨broken, entry, rfl, leaf⟩
        · exact .built
        · exact .cleared broken leaf fun _ same => (Option.some.inj same).symm
      · exact .renewed ((paid stands rfl).resolve_left directory) free directory

theorem mono {replaced broken : Prop} (remains : Remains written stale before after)
    (written_sub : written → replaced) (stale_sub : stale → broken) :
    Remains replaced broken before after := by
  cases remains with
  | same => exact .same
  | built => exact .built
  | renewed taken free leaf => exact .renewed (written_sub taken) free leaf
  | cleared old leaf gone => exact .cleared (stale_sub old) leaf gone

theorem eq_or_written (remains : Remains written stale before (some entry))
    (leaf : entry ≠ .directory) : before = some entry ∨ written := by
  cases remains with
  | same => exact .inl rfl
  | built => exact absurd rfl leaf
  | renewed taken _ _ => exact .inr taken
  | cleared _ _ gone => exact absurd (gone entry rfl) leaf

/-- What was there before is still there, or gave way to what was written, or was a lock that was
stale. -/
theorem eq_or_gone (remains : Remains written stale (some entry) after) :
    after = some entry ∨ entry ≠ .directory ∧
      ((written ∧ ∃ other, after = some other ∧ other ≠ .directory) ∨
        (stale ∧ ∀ other, after = some other → other = .directory)) := by
  cases remains with
  | same => exact .inl rfl
  | renewed taken free leaf =>
      exact .inr ⟨fun same => free (congrArg some same), .inl ⟨taken, _, rfl, leaf⟩⟩
  | cleared broken leaf gone => exact .inr ⟨leaf, .inr ⟨broken, gone⟩⟩

end Remains

namespace Disk

variable {disk before after : Disk} {location place directory : Location} {name : String}
  {written stale : Location → Prop}

/-- All that is there afterwards is accounted for, and no link is new. -/
structure Tidies (written stale : Location → Prop) (before after : Disk) : Prop where
  remains : ∀ location,
    Remains (written location) (stale location) (before.find? location) (after.find? location)
  changes : ChangesBelow [] before after

instance (written stale : Location → Prop) : IsPreorder Disk (Tidies written stale) where
  refl disk := ⟨fun _ => .same, .refl [] disk⟩
  trans _ _ _ first second :=
    ⟨fun location => (first.remains location).trans (second.remains location),
      first.changes.trans second.changes⟩

theorem Tidies.mono {replaced broken : Location → Prop} (tidies : Tidies written stale before after)
    (written_sub : ∀ location, written location → replaced location)
    (stale_sub : ∀ location, stale location → broken location) : Tidies replaced broken before after :=
  ⟨fun location => (tidies.remains location).mono (written_sub location) (stale_sub location),
    tidies.changes⟩

theorem Builds.remains {written stale : Prop} (builds : before.Builds after) (location : Location) :
    Remains written stale (before.find? location) (after.find? location) := by
  rcases builds location with same | ⟨missing, built⟩
  · exact same ▸ .same
  · rw [missing, built]
    exact .built

theorem removes_of_stands (named : ∀ other ∈ place, IsName other) (fits : place.Fits)
    {content : ByteArray} {age : Nat} (stands : disk.find? place = some (.file content age)) :
    ∃ after, disk.removeFile (Location.route place) = .ok after ∧ disk.Becomes place none after := by
  rcases List.eq_nil_or_concat place with top | ⟨directory, name, split⟩
  · subst top
    cases stands
  rw [List.concat_eq_append] at split
  subst split
  have free : disk.LinkFree directory := by
    simpa using linkFree_dropLast_of_stands stands
  have approached := approach_eq_ok_iff.2
    ⟨fits.path, fun other member => fits.names other (by simp [member]), find?_above stands⟩
  have removed : disk.removeFile (Location.route (directory ++ [name])) =
      .ok (disk.remove (directory ++ [name])) := by
    rw [removeFile_eq named free, approached, unlink, stands]
    rfl
  exact ⟨_, removed, becomes_of_removeFile named free removed⟩

theorem ensureDirectory_of_stands (named : ∀ name ∈ place, IsName name) (free : disk.LinkFree place)
    (stands : disk.find? place = some .directory) :
    (disk.ensureDirectory ((Location.ancestors place).map Location.route)).2 = disk := by
  induction place using List.reverseRecOn with
  | nil =>
      have refused : disk.createDirectory (Location.route []) = .error .exists := rfl
      simp only [Location.ancestors, List.map_cons, ensureDirectory, refused]
      split <;> rfl
  | append_singleton directory name ih =>
      have refused : ∀ after, disk.createDirectory (Location.route (directory ++ [name])) ≠
          .ok after := by
        intro after created
        have absent := (becomes_of_createDirectory named
          (free.above (List.prefix_append _ _)) created).1
        cases stands.symm.trans absent
      have above := ih (Location.named_above named) (free.above (List.prefix_append _ _))
        (find?_above stands)
      rw [Location.ancestors_concat, List.map_cons, ensureDirectory]
      split
      next => rfl
      next =>
        dsimp only
        split
        next created made => exact absurd made (refused created)
        next =>
          split
          next fault changed ensured =>
            rw [ensured] at above
            exact above
          next changed ensured =>
            rw [ensured] at above
            dsimp only at above
            subst above
            split
            next created made => exact absurd made (refused created)
            next => rfl
        next => rfl

end Disk

/-! ## Staged writes -/

section Writes

variable {host later : Host} {target : Target} {place temporary first second location : Location}
  {content : ByteArray}

namespace StagedWrite

variable {staged : StagedWrite}

theorem Waits.moved {disk after : Disk} {other : ByteArray}
    (waits : staged.Waits place temporary content disk) (changes : Disk.ChangesBelow [] disk after)
    (stands : after.find? temporary = some (.file other 0)) :
    staged.Waits place temporary other after := by
  obtain ⟨target, holds, ⟨directory, name, number, placed, named, isName, shelters⟩, fits, _⟩ := waits
  exact ⟨target, holds, ⟨directory, name, number, placed, named, isName, changes.shelters shelters⟩,
    fits, stands⟩

theorem Waits.named {disk : Disk} (waits : staged.Waits place temporary content disk) :
    ∀ name ∈ temporary, IsName name := by
  obtain ⟨_, _, ⟨directory, name, number, rfl, rfl, _, shelters⟩, _, _⟩ := waits
  exact shelters.named_concat (isName_temporaryName number)

theorem becomes_of_discard (waits : staged.Waits place temporary content host.disk) :
    host.disk.Becomes temporary none (staged.discard host).2.disk := by
  obtain ⟨after, removed, becomes⟩ := Disk.removes_of_stands waits.named waits.fits waits.stands
  have discarded : staged.discard host = (.ok (), { host with disk := after }) := by
    apply Action.change_of_ok
    rw [waits.holds]
    exact removed
  rw [discarded]
  exact becomes

/-- Nothing but directories and the temporary file is new when a write is staged. -/
theorem builds_of_stage {outcome : Outcome StagedWrite} (sheltered : target.Sheltered [] host.disk)
    (ran : stage target content host = (outcome, later)) :
    (∃ error, outcome = .error error ∧ host.disk.Builds later.disk) ∨
      ∃ staged place temporary, outcome = .ok staged ∧ target = .located place ∧
        staged.Waits place temporary content later.disk ∧ host.disk.find? temporary = none ∧
        ∃ between, host.disk.Builds between ∧
          ∀ other, other ≠ temporary → later.disk.find? other = between.find? other := by
  have builds : host.disk.Builds (host.disk.ensureDirectory target.directories).2 :=
    Disk.builds_ensureDirectory target.directories
  cases outcome with
  | error error =>
      refine .inl ⟨error, rfl, ?_⟩
      rcases Action.bind_cases ran with ⟨_, _, failed⟩ | ⟨_, ready, ensured, wrote⟩
      · exact (Prod.mk.inj failed).2 ▸ builds
      · have same := (Prod.mk.inj ensured).2
        split at wrote
        next => cases wrote
        next =>
          cases wrote
          exact same ▸ builds
  | ok staged =>
      obtain ⟨directory, name, rfl, isName, shelters⟩ := sheltered
      obtain ⟨temporary, waits, absent, _⟩ := waits_of_stage isName shelters ran
      obtain ⟨ready, written, ensured, wrote, rfl⟩ := exists_of_stage ran
      rw [ensured] at builds
      have sheltersThen := shelters.changesBelow_ensureDirectory
      rw [← @Target.directories_located _ name, ensured] at sheltersThen
      obtain ⟨number, _, held, created⟩ := exists_of_writeTemporary wrote
      obtain ⟨_, becomes⟩ := Disk.becomes_of_createFile
        (shelters.named_concat (isName_temporaryName number))
        (sheltersThen.shelters shelters).free created
      cases waits.holds.symm.trans held
      refine .inr ⟨staged, _, _, rfl, rfl, waits, absent, ready, builds, fun other elsewhere => ?_⟩
      exact (becomes other).trans (if_neg elsewhere)

theorem commit_effects {outcome : Outcome Unit}
    (waits : staged.Waits place temporary content host.disk) (fits : place.Fits)
    (ran : staged.commit host = (outcome, later)) :
    (outcome = .ok () ∧ ∀ location, later.disk.find? location =
        if location = place then some (.file content 0)
        else if location = temporary then none
        else host.disk.find? location) ∨
      (∃ error, outcome = .error error) ∧ host.disk.Becomes temporary none later.disk := by
  rcases commit_cases waits fits ran with moved | ⟨rfl, _⟩
  · exact .inl moved
  · obtain ⟨ended, refused, rfl⟩ := Action.exists_of_onError ran
    refine .inr ⟨⟨_, rfl⟩, ?_⟩
    unfold Action.change at refused
    split at refused
    next => cases refused
    next =>
      cases refused
      exact becomes_of_discard waits

/-- What two writes that wait come to, one after the other: both temporary files are gone, and all
else is as before but for the places that were taken. -/
theorem commits_effects {α : Type} {value : α} {one other : StagedWrite}
    {firstTemporary secondTemporary : Location} {firstContent secondContent : ByteArray}
    {outcome : Outcome α} (waits : one.Waits first firstTemporary firstContent host.disk)
    (waitsToo : other.Waits second secondTemporary secondContent host.disk)
    (fits : first.Fits) (fitsToo : second.Fits) (distinct : firstTemporary ≠ secondTemporary)
    (ran : (do
      Action.onError one.commit other.discard
      other.commit
      pure value : Action α) host = (outcome, later)) :
    (location = firstTemporary ∨ location = secondTemporary) ∧ later.disk.find? location = none ∨
      (location = first ∨ location = second) ∧
        (∃ content, later.disk.find? location = some (.file content 0)) ∨
      (location ≠ firstTemporary ∧ location ≠ secondTemporary) ∧
        later.disk.find? location = host.disk.find? location := by
  rcases Action.bind_cases ran with ⟨error, rfl, failed⟩ | ⟨⟨⟩, between, committed, ran⟩
  -- The first commit fails, and both temporary files are discarded.
  · obtain ⟨ended, refused, rfl⟩ := Action.exists_of_onError failed
    rcases commit_effects waits fits refused with ⟨⟨⟩, _⟩ | ⟨_, gone⟩
    have changes := (stays_commit waits.pending).changesBelow refused
    have still : ended.disk.find? secondTemporary = some (.file secondContent 0) := by
      rw [gone, if_neg (Ne.symm distinct), waitsToo.stands]
    have goneToo := becomes_of_discard (waitsToo.moved changes still)
    rw [goneToo location, gone location]
    by_cases second : location = secondTemporary
    · exact .inl ⟨.inr second, if_pos second⟩
    · rw [if_neg second]
      by_cases first : location = firstTemporary
      · exact .inl ⟨.inl first, if_pos first⟩
      · exact .inr (.inr ⟨⟨first, second⟩, if_neg first⟩)
  have changes := (stays_commit_onError waits.pending waitsToo.pending).changesBelow committed
  rcases commit_effects waits fits (Action.eq_ok_of_onError committed) with
    ⟨_, moved⟩ | ⟨⟨_, ⟨⟩⟩, _⟩
  -- The second temporary file may itself stand in the first place, and then it is taken over.
  have still : ∃ content, between.disk.find? secondTemporary = some (.file content 0) := by
    rw [moved, if_neg (Ne.symm distinct)]
    split
    next => exact ⟨_, rfl⟩
    next => exact ⟨_, waitsToo.stands⟩
  obtain ⟨content, still⟩ := still
  have waitsStill := waitsToo.moved changes still
  -- Whether the second write takes its place or is discarded, its temporary file is gone.
  have after : later.disk.find? location = (if location = secondTemporary then none
      else between.disk.find? location) ∨
      location = second ∧ ∃ content, later.disk.find? location = some (.file content 0) := by
    rcases Action.bind_cases ran with ⟨error, rfl, failed⟩ | ⟨⟨⟩, ended, committedToo, finished⟩
    · rcases commit_effects waitsStill fitsToo failed with ⟨⟨⟩, _⟩ | ⟨_, gone⟩
      exact .inl (gone location)
    · cases finished
      rcases commit_effects waitsStill fitsToo committedToo with ⟨_, movedToo⟩ | ⟨⟨_, ⟨⟩⟩, _⟩
      rw [movedToo location]
      by_cases here : location = second
      · exact .inr ⟨here, _, if_pos here⟩
      · exact .inl (if_neg here)
  rcases after with same | ⟨here, content, stands⟩
  · rw [same, moved location]
    by_cases second : location = secondTemporary
    · exact .inl ⟨.inr second, if_pos second⟩
    · rw [if_neg second]
      by_cases place : location = first
      · exact .inr (.inl ⟨.inl place, _, if_pos place⟩)
      · rw [if_neg place]
        by_cases first : location = firstTemporary
        · exact .inl ⟨.inl first, if_pos first⟩
        · exact .inr (.inr ⟨⟨first, second⟩, if_neg first⟩)
  · exact .inr (.inl ⟨.inr here, content, stands⟩)

end StagedWrite

end Writes

/-! ## Locks -/

namespace Lock

variable {host later : Host} {target : Target} {lock : Lock} {place location : Location}
  {disk : Disk} {timeout : Nat}

/-- What stands there, taken as a lock, is stale. -/
def IsStale (disk : Disk) (place : Location) : Prop :=
  (staleText? disk (Location.route place)).isSome = true

instance (disk : Disk) (place : Location) : Decidable (IsStale disk place) :=
  inferInstanceAs (Decidable (_ = true))

/-- Nothing stands where the lock of the target would be set aside: tokens are not used twice. -/
def TokenUnused (target : Target) (host : Host) : Prop :=
  ∀ aside, grave target.lock (host.holder.text ++ "-" ++ toString host.tokens) = .located aside →
    host.disk.find? aside = none

instance (target : Target) (host : Host) : Decidable (TokenUnused target host) :=
  match aside : grave target.lock (host.holder.text ++ "-" ++ toString host.tokens) with
  | .located place =>
      decidable_of_iff (host.disk.find? place = none)
        ⟨fun missing _ same => Target.located.inj (aside.symm.trans same) ▸ missing,
          fun unused => unused place aside⟩
  | .written _ => .isTrue fun _ same => nomatch aside.symm.trans same

/-- A stale lock that is broken is gone, and so is what stood where it was set aside. -/
theorem find?_of_breakStale {directory : Location} {name : String} {holder : Holder} {number : Nat}
    {after : Disk} (isName : IsName name) (shelters : disk.Shelters [] directory)
    (broken : breakStale (.located (directory ++ [name])) (holder.text ++ "-" ++ toString number) disk =
      some after) :
    IsStale disk (directory ++ [name]) ∧ (∃ entry, disk.find? (directory ++ [name]) = some entry) ∧
      ∀ location, after.find? location =
        if location = directory ++ [name ++ ".stale-" ++ (holder.text ++ "-" ++ toString number)] then
          none
        else if location = directory ++ [name] then none
        else disk.find? location := by
  have graveIsName := isName_grave isName holder number
  rw [breakStale, Target.grave_located] at broken
  split at broken
  next text moved stale renamed =>
    obtain ⟨entry, stands, moves⟩ := shelters.find?_of_rename isName graveIsName renamed
    have gone := Disk.becomes_of_removeFile (shelters.named_concat graveIsName)
      (shelters.linkFree_of_rename isName graveIsName renamed) (toOption_eq_some_iff.1 broken)
    refine ⟨Option.isSome_iff_exists.2 ⟨text, stale⟩, ⟨entry, stands⟩, fun location => ?_⟩
    rw [gone location, moves location]
    split <;> rfl
  next => cases broken

theorem builds_of_refused {error : Error}
    (refused : acquire target timeout host = (.error error, later)) :
    host.disk.Builds later.disk := by
  have builds : host.disk.Builds (host.disk.ensureDirectory target.lock.directories).2 :=
    Disk.builds_ensureDirectory target.lock.directories
  rcases Action.bind_cases refused with ⟨_, _, failed⟩ | ⟨_, ready, ensured, taking⟩
  · exact (Prod.mk.inj failed).2 ▸ builds
  · have same := (Prod.mk.inj ensured).2
    rcases Action.bind_cases taking with ⟨_, _, ⟨⟩⟩ | ⟨token, counted, given, taking⟩
    cases given
    dsimp only at taking
    split at taking
    next => cases taking
    next =>
      cases taking
      exact same ▸ builds

/-- A lock that is taken stands where nothing stood, or a stale lock, and everything else is as before
but for directories that are new. -/
theorem effects_of_acquire (sheltered : target.Sheltered [] host.disk)
    (unused : TokenUnused target host)
    (acquired : acquire target timeout host = (.ok lock, later)) :
    ∃ place, target.lock = .located place ∧ place.Fits ∧
      later.disk.find? place = some (.file lock.token.toUTF8 0) ∧
      (host.disk.find? place = none ∨ IsStale host.disk place ∧
        ∃ entry, host.disk.find? place = some entry ∧ entry ≠ .directory) ∧
      ∀ location, location ≠ place → later.disk.find? location = host.disk.find? location ∨
        host.disk.find? location = none ∧ later.disk.find? location = some .directory := by
  obtain ⟨ready, taken, ensured, rfl, took, rfl⟩ := exists_of_acquire acquired
  have builds : host.disk.Builds (host.disk.ensureDirectory target.lock.directories).2 :=
    Disk.builds_ensureDirectory target.lock.directories
  have steps := steps_take took
  obtain ⟨directory, name, rfl, isName, shelters⟩ := sheltered
  have lockIsName := isName_lock isName
  rw [Target.lock_located] at ensured took builds
  rw [Target.directories_located] at ensured builds
  have grown := Disk.grows_of_ensureDirectory shelters.named shelters.free
  have changes := shelters.changesBelow_ensureDirectory
  rw [ensured] at grown changes builds
  have sheltersThen := changes.shelters shelters
  have untouched : ready.find? (directory ++ [name ++ ".lock"]) =
      host.disk.find? (directory ++ [name ++ ".lock"]) := by
    rcases grown (directory ++ [name ++ ".lock"]) with same | ⟨within, _⟩
    · exact same
    · have shorter := within.length_le
      rw [List.length_append, List.length_singleton] at shorter
      omega
  have named := shelters.named_concat lockIsName
  obtain ⟨before, start, created⟩ := exists_of_take took
  refine ⟨_, Target.lock_located, ?_⟩
  -- The lock is made where nothing stood, or after a stale one was broken.
  rcases start with rfl | broken
  · obtain ⟨absent, becomes⟩ := Disk.becomes_of_createFile named sheltersThen.free created
    refine ⟨Disk.fits_of_createFile named sheltersThen.free created, (becomes _).trans (if_pos rfl),
      .inl (untouched.symm.trans absent), fun location elsewhere => ?_⟩
    rw [becomes location, if_neg elsewhere]
    exact builds location
  · have sheltered : (Target.located (directory ++ [name ++ ".lock"])).Sheltered [] ready :=
      ⟨directory, _, rfl, lockIsName, sheltersThen⟩
    have freeThen := ((changesBelow_breakStale sheltered broken).shelters sheltersThen).free
    obtain ⟨stale, ⟨entry, stands⟩, gone⟩ := find?_of_breakStale lockIsName sheltersThen broken
    have stood := untouched.symm.trans stands
    -- The lock stood before, so its directory did, and no directory was made.
    have same : ready = host.disk := by
      have still := Disk.ensureDirectory_of_stands shelters.named shelters.free
        (Disk.find?_above stood)
      rw [ensured] at still
      exact still
    obtain ⟨_, becomes⟩ := Disk.becomes_of_createFile named freeThen created
    refine ⟨Disk.fits_of_createFile named freeThen created, (becomes _).trans (if_pos rfl),
      .inr ⟨same ▸ stale, entry, stood, ?_⟩, fun location elsewhere => .inl ?_⟩
    · rintro rfl
      have still := steps.keepsDirectories _ stands
      rw [becomes, if_pos rfl] at still
      cases still
    · rw [becomes location, if_neg elsewhere, gone location, if_neg elsewhere, same]
      split
      next aside =>
        subst aside
        refine (unused _ ?_).symm
        rw [Target.lock_located, Target.grave_located]
      next => rfl

theorem becomes_of_drop (located : lock.target.lock = .located place)
    (named : ∀ name ∈ place, IsName name) (fits : place.Fits)
    (stands : disk.find? place = some (.file lock.token.toUTF8 0)) :
    disk.Becomes place none (lock.drop disk) := by
  have held : lock.isHeld disk = true := by
    unfold isHeld Disk.readText Disk.read
    rw [located, Target.route, Disk.inspect_of_stands named stands rfl fits]
    simp only [bind, Except.bind, fromUTF8?_toUTF8, decide_true]
  obtain ⟨after, removed, becomes⟩ := Disk.removes_of_stands named fits stands
  rw [drop, if_pos held, located, Target.route, removed]
  exact becomes

theorem drop_effects (sheltered : lock.target.Sheltered [] disk)
    (located : lock.target.lock = .located place) :
    lock.drop disk = disk ∨ disk.Becomes place none (lock.drop disk) := by
  rcases lock.drop_cases disk with same | ⟨_, removed⟩
  · exact .inl same
  · obtain ⟨directory, name, targeted, isName, shelters⟩ := sheltered.lock
    rw [located] at targeted
    cases targeted
    rw [located] at removed
    exact .inr (Disk.becomes_of_removeFile (shelters.named_concat isName) shelters.free removed)

/-- Work that leaves nothing behind while a lock is held leaves nothing behind with the lock around
it. -/
theorem tidies_holding {α : Type} {body : Lock → Action α} {written stale : Location → Prop}
    (sheltered : target.Sheltered [] host.disk) (unused : TokenUnused target host)
    (broken : ∀ place, target.lock = .located place → IsStale host.disk place → stale place)
    (works : ∀ lock locked, acquire target timeout host = (.ok lock, locked) →
      (body lock).Relates (Disk.Tidies written stale) locked) :
    (holding target timeout body).Relates (Disk.Tidies written stale) host := by
  have stays : (holding target timeout body).StaysBelow [] host :=
    stays_holding sheltered fun lock locked acquired => (works lock locked acquired).changes
  refine ⟨fun location => ?_, stays⟩
  cases ran : holding target timeout body host with
  | mk outcome later => ?_
  dsimp only
  rcases holding_cases ran with ⟨error, _, refused⟩ | ⟨lock, locked, ended, acquired, worked, rfl⟩
  · exact (builds_of_refused refused).remains location
  obtain ⟨place, located, fits, stands, lent, elsewhere⟩ :=
    effects_of_acquire sheltered unused acquired
  have tidies := (works lock locked acquired).of_ran worked
  have shelteredThen : lock.target.Sheltered [] ended.disk := by
    rw [target_of_acquire acquired]
    exact (sheltered.later ((stays_acquire sheltered).changesBelow acquired)).later tidies.changes
  have own : lock.target.lock = .located place := target_of_acquire acquired ▸ located
  -- In its own place the lock is to be paid back, and elsewhere it left only directories.
  by_cases here : location = place
  · subst here
    have named : ∀ name ∈ location, IsName name := by
      have shelteredLock := shelteredThen.lock
      rw [own] at shelteredLock
      exact shelteredLock.named
    refine .of_lent (lent.imp_right fun ⟨old, stood⟩ => ⟨broken location located old, stood⟩) ?_
    intro entry standing
    rcases drop_effects shelteredThen own with same | gone
    · dsimp only at standing
      rw [same] at standing
      have remains := tidies.remains location
      rw [stands, standing] at remains
      cases remains with
      -- The token is still there, so the lock was not dropped: but then it would have been.
      | same =>
          have gone := becomes_of_drop own named fits standing location
          rw [if_pos rfl, same, standing] at gone
          cases gone
      | renewed replaced => exact .inr replaced
      | cleared _ _ gone => exact .inl (gone entry rfl)
    · dsimp only at standing
      rw [gone location, if_pos rfl] at standing
      cases standing
  · have dropped : (lock.drop ended.disk).find? location = ended.disk.find? location := by
      rcases drop_effects shelteredThen own with same | gone
      · rw [same]
      · rw [gone location, if_neg here]
    dsimp only
    rw [dropped]
    refine Remains.trans ?_ (tidies.remains location)
    rcases elsewhere location here with same | ⟨missing, built⟩
    · exact same ▸ .same
    · rw [missing, built]
      exact .built

end Lock

end SourceBaseline
