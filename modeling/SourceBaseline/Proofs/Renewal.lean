import SourceBaseline.Proofs.Boundary.Standing
import SourceBaseline.Proofs.Calls
import SourceBaseline.Proofs.Engine.Replacement
import SourceBaseline.Proofs.Steps

/-!
# Old or new

Of all the calls of a save only one touches the place of the document, and it puts the whole of the new
document there. So whoever reads the place between two calls gets what stood there before or the whole
of the new document. A staged write that is discarded takes its temporary file with it and nothing else.
-/

set_option autoImplicit false

namespace SourceBaseline

namespace Disk

variable {disk before after : Disk} {place location : Location}

/-! ## What a reader gets -/

/-- The bytes that a reader gets where a route leads, if it gets any. -/
def contents? (disk : Disk) (route : Route) : Option ByteArray :=
  (disk.read route).toOption

theorem contents?_eq_some_iff {content : ByteArray} (named : ∀ name ∈ place, IsName name)
    (free : disk.LinkFree place) :
    disk.contents? (Location.route place) = some content ↔
      place.Fits ∧ ∃ age, disk.find? place = some (.file content age) := by
  unfold contents?
  rw [toOption_eq_some_iff]
  constructor
  · intro read
    obtain ⟨entry, inspected, same⟩ := bind_eq_ok_iff.1 read
    have stands := find?_of_inspect named free inspected
    obtain ⟨reached, located, _⟩ := bind_eq_ok_iff.1 inspected
    rw [locate_eq_descend named free] at located
    obtain ⟨_, clean, descended⟩ := bind_eq_ok_iff.1 located
    split at same
    next =>
      cases same
      exact ⟨⟨clean, names_of_descend descended⟩, _, stands⟩
    next => cases same
  · rintro ⟨fits, age, stands⟩
    unfold read
    rw [inspect_of_stands named stands rfl fits]
    rfl

theorem contents?_congr (named : ∀ name ∈ place, IsName name) (free : before.LinkFree place)
    (freeThen : after.LinkFree place) (same : after.find? place = before.find? place) :
    after.contents? (Location.route place) = before.contents? (Location.route place) := by
  apply Option.ext
  intro content
  rw [contents?_eq_some_iff named free, contents?_eq_some_iff named freeThen, same]

/-- What stands at the location is what stood there before or the whole of something new, and no link
is new. -/
structure Renews (location : Location) (new : ByteArray → Prop) (before after : Disk) : Prop where
  whole : after.find? location = before.find? location ∨
    location.Fits ∧ ∃ content, new content ∧ after.find? location = some (.file content 0)
  changes : ChangesBelow [] before after

instance (location : Location) (new : ByteArray → Prop) : IsPreorder Disk (Renews location new) where
  refl disk := ⟨.inl rfl, .refl [] disk⟩
  trans _ _ _ first second := by
    refine ⟨?_, first.changes.trans second.changes⟩
    rcases second.whole with same | renewed
    · rw [same]
      exact first.whole
    · exact .inr renewed

variable {new : ByteArray → Prop}

theorem Leaves.renews (leaves : before.Leaves location after) : before.Renews location new after :=
  ⟨.inl leaves.same, leaves.changes⟩

/-- A reader of a renewed place gets what it got before or the whole of something new. -/
theorem Renews.reads (renews : before.Renews place new after) (named : ∀ name ∈ place, IsName name)
    (free : before.LinkFree place) :
    after.contents? (Location.route place) = before.contents? (Location.route place) ∨
      ∃ content, new content ∧ after.contents? (Location.route place) = some content := by
  have freeThen := renews.changes.linkFree free
  rcases renews.whole with same | ⟨fits, content, fresh, stands⟩
  · exact .inl (contents?_congr named free freeThen same)
  · exact .inr ⟨content, fresh, (contents?_eq_some_iff named freeThen).2 ⟨fits, 0, stands⟩⟩

/-! ## Directories on the way -/

/-- Nothing is new but directories where nothing stood. -/
def Builds (before after : Disk) : Prop :=
  ∀ location, after.find? location = before.find? location ∨
    before.find? location = none ∧ after.find? location = some .directory

instance : IsPreorder Disk Builds where
  refl _ _ := .inl rfl
  trans _ _ _ first second := by
    intro location
    rcases second location with same | ⟨missing, built⟩
    · rw [same]
      exact first location
    · rcases first location with same | ⟨_, already⟩
      · exact .inr ⟨same ▸ missing, built⟩
      · cases missing.symm.trans already

theorem builds_ensureDirectory (routes : List Route) :
    disk.Builds (disk.ensureDirectory routes).2 := by
  refine relates_ensureDirectory ?_ routes
  intro before after route created location
  obtain ⟨⟨parent, name⟩, _, created⟩ := bind_eq_ok_iff.1 created
  obtain ⟨_, free, becomes⟩ := becomes_of_create created
  rw [becomes location]
  split
  next here => exact .inr ⟨here ▸ free, rfl⟩
  next => exact .inl rfl

theorem Builds.file_iff (builds : before.Builds after) {content : ByteArray} {age : Nat} :
    after.find? location = some (.file content age) ↔
      before.find? location = some (.file content age) := by
  rcases builds location with same | ⟨missing, built⟩
  · rw [same]
  · rw [missing, built]
    simp

theorem Builds.solid (builds : before.Builds after)
    (solid : ∀ target, before.find? location ≠ some (.link target)) :
    ∀ target, after.find? location ≠ some (.link target) := by
  intro target stands
  rcases builds location with same | ⟨_, built⟩
  · exact solid target (same.symm.trans stands)
  · cases built.symm.trans stands

theorem Builds.keepsWays (builds : before.Builds after) : before.KeepsWays after := by
  apply keepsWays_of_forall
  intro location entry stands
  rcases builds location with same | ⟨missing, _⟩
  · exact .inl (same.trans stands)
  · cases missing.symm.trans stands

end Disk

variable {α : Type} [Document α] {host later : Host} {place location : Location} {timeout : Nat}
  {new : ByteArray → Prop}

/-! ## The calls that renew -/

namespace StagedWrite

variable {staged : StagedWrite} {temporary : Location} {content : ByteArray} {target : Target}

theorem renews_commit (waits : staged.Waits place temporary content host.disk) (fits : place.Fits)
    (unused : staged.temporary ≠ .located location) (written : location = place → new content) :
    staged.commit.Relates (Disk.Renews location new) host := by
  have elsewhere : location ≠ temporary := by
    rintro rfl
    exact unused waits.holds
  refine ⟨?_, stays_commit waits.pending⟩
  cases ran : staged.commit host with
  | mk outcome later => ?_
  dsimp only
  rcases commit_cases waits fits ran with ⟨_, moved⟩ | ⟨_, _, kept⟩
  · rw [moved location, if_neg elsewhere]
    split
    next here => exact .inr ⟨here ▸ fits, content, written here, rfl⟩
    next => exact .inl rfl
  · exact .inl (kept location elsewhere)

/-- A staged write that is discarded takes its temporary file with it and leaves everything else as it
is. No file is left that was not there before it was staged, and none is missing. -/
theorem discard_of_stage (ran : stage target content host = (.ok staged, later)) :
    ∃ temporary after, staged.discard later = (.ok (), { later with disk := after }) ∧
      later.disk.find? temporary = some (.file content 0) ∧
      (∀ location, after.find? location =
        if location = temporary then none else later.disk.find? location) ∧
      ∀ location bytes age, after.find? location = some (.file bytes age) ↔
        host.disk.find? location = some (.file bytes age) := by
  obtain ⟨ready, written, ensured, wrote, rfl⟩ := exists_of_stage ran
  have builds : host.disk.Builds (host.disk.ensureDirectory target.directories).2 :=
    Disk.builds_ensureDirectory target.directories
  rw [ensured] at builds
  obtain ⟨_, _, created⟩ := createFile_of_writeTemporary wrote
  obtain ⟨parent, name, found, free, becomes⟩ := Disk.exists_of_createFile created
  have keeps : ready.KeepsWays written := becomes.keepsWays fun entry stands => by
    cases free.symm.trans stands
  have stands : written.find? (parent ++ [name]) = some (.file content 0) := by
    rw [becomes, if_pos rfl]
  have unlinked : written.unlink (parent ++ [name]) = .ok (written.remove (parent ++ [name])) := by
    rw [Disk.unlink, stands]
  have removed : written.removeFile staged.temporary.route =
      .ok (written.remove (parent ++ [name])) := by
    unfold Disk.removeFile
    rw [keeps.slot found]
    exact unlinked
  obtain ⟨_, gone⟩ := Disk.becomes_of_unlink unlinked
  refine ⟨parent ++ [name], _, Action.change_of_ok removed, stands, gone, ?_⟩
  intro location bytes age
  rw [← builds.file_iff, gone location]
  split
  next here => rw [here, free]
  next elsewhere => rw [becomes location, if_neg elsewhere]

end StagedWrite

theorem creationOnRecord?_congr {before after : Disk} (named : ∀ name ∈ place, IsName name)
    (free : before.LinkFree place) (leaves : before.Leaves place after) :
    creationOnRecord? after (Location.route place) = creationOnRecord? before (Location.route place) := by
  have reads : ∀ disk : Disk, creationOnRecord? disk (Location.route place) =
      ((disk.contents? (Location.route place)).bind String.fromUTF8?).bind recordedCreation? := by
    intro disk
    unfold creationOnRecord? Disk.readText Disk.contents?
    cases disk.read (Location.route place) with
    | error fault => rfl
    | ok content =>
        simp only [bind, Except.bind, Except.toOption, Option.bind_some]
        cases String.fromUTF8? content <;> rfl
  have freeThen := leaves.changes.linkFree free
  rw [reads, reads, Disk.contents?_congr named free freeThen leaves.same]

/-- While a lock is held and given back, a location that its target spares is renewed by nothing but
what is done under the lock. -/
theorem Lock.along_holding {β : Type} {body : Lock → Calls β}
    (spares : (Target.located place).Spares location host.disk)
    (renews : ∀ lock locked, acquire (.located place) timeout host = (.ok lock, locked) →
      (body lock).Along (Disk.Renews location new) locked) :
    (holdingCalls (.located place) timeout body).Along (Disk.Renews location new) host := by
  have takes : (acquire (.located place) timeout).Relates (Disk.Leaves location) host :=
    leaves_acquire spares
  refine (Calls.along_call takes.renews).bind ?_
  intro lock locked acquired
  have body := renews lock locked acquired
  refine body.ensuring ?_
  intro outcome ended ran
  have guards := (guards_of_acquire spares.sheltered acquired).later (body.ends.of_ran ran).changes
  exact Calls.along_call (guards.leaves_drop spares.apart).renews

namespace Document

/-- The whole of what a save of the document puts in the place. -/
def renewal (document : α) (place : Location) (host : Host) : ByteArray :=
  bytes (stamped document (creationOnRecord? host.disk (Location.route place)) host.now)

/-- The document that is staged under a lock is the one that a save would put in the place, as long as
what stands there has not changed. -/
theorem awaits_of_stage {lock : Lock} {document kept : α} {staged : StagedWrite} {locked : Host}
    (guards : lock.Guards place locked.disk) (leaves : host.disk.Leaves place locked.disk)
    (now : locked.now = host.now) (free : host.disk.LinkFree place)
    (ran : stage lock document locked = (.ok (kept, staged), later)) :
    later.now = host.now ∧ ∃ temporary,
      staged.Waits place temporary (renewal document place host) later.disk ∧
        locked.disk.find? temporary = none ∧
        ∀ location entry, locked.disk.find? location = some entry →
          later.disk.find? location = some entry := by
  obtain ⟨stamps, sameTime, temporary, waits, absent, standing⟩ := waits_of_stage guards ran
  have same : bytes kept = renewal document place host := by
    rw [stamps, renewal, now, creationOnRecord?_congr guards.sheltered.named free leaves]
  exact ⟨sameTime.trans now, temporary, same ▸ waits, absent, standing⟩

theorem along_save {document : α} (spares : (Target.located place).Spares place host.disk)
    (free : host.disk.LinkFree place) :
    (saveCalls (.located place) document timeout).Along
      (Disk.Renews place (· = renewal document place host)) host := by
  refine Lock.along_holding spares ?_
  intro lock locked acquired
  have leaves := (Lock.leaves_acquire spares).of_ran acquired
  have guards := Lock.guards_of_acquire spares.sheltered acquired
  have sparesThen : lock.target.Spares place locked.disk := by
    rw [guards.target]
    exact spares.later leaves
  have stages := leaves_stage document sparesThen
  refine (Calls.along_call stages.renews).bind ?_
  rintro ⟨kept, staged⟩ later ran
  obtain ⟨_, temporary, waits, _, _⟩ :=
    awaits_of_stage guards leaves (Lock.now_of_acquire acquired) free ran
  have unused : staged.temporary ≠ .located place :=
    waits.pending.elsewhere (waits.target ▸ (spares.later leaves).later (stages.of_ran ran))
  have commits : staged.commit.Relates (Disk.Renews place (· = renewal document place host)) later :=
    StagedWrite.renews_commit waits guards.fits unused fun _ => rfl
  exact (Calls.along_call commits).bind fun _ _ _ => Calls.along_pure kept

/-- Between the calls of a save a reader gets the bytes of before or the whole new document. -/
theorem reads_of_save {document : α} {disk : Disk}
    (spares : (Target.located place).Spares place host.disk) (free : host.disk.LinkFree place)
    (seen : disk ∈ (saveCalls (.located place) document timeout).seen host) :
    disk.contents? (Location.route place) = host.disk.contents? (Location.route place) ∨
      disk.contents? (Location.route place) = some (renewal document place host) := by
  have renews := (along_save spares free).seen disk seen
  rcases renews.reads spares.sheltered.named free with same | ⟨_, rfl, renewed⟩
  · exact .inl same
  · exact .inr renewed

end Document

end SourceBaseline
