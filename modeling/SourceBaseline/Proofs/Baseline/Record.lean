import SourceBaseline.Proofs.Baseline.Document
import SourceBaseline.Proofs.Baseline.Saving
import SourceBaseline.Proofs.Boundary.Standing
import SourceBaseline.Proofs.Engine.Replacement

/-!
# What a place tells about the saves

A document that is saved takes the time of the first save from the document that it replaces. So what
stands at a place tells when it was saved first and when last, however often it is replaced.
-/

set_option autoImplicit false

namespace SourceBaseline

/-- What stands somewhere, without its age. -/
def Entry.ageless : Entry → Entry
  | .file content _ => .file content 0
  | entry => entry

/-- Two disks hold the same at the location, up to the age of a file. -/
def Disk.SameAt (location : Location) (before after : Disk) : Prop :=
  (before.find? location).map Entry.ageless = (after.find? location).map Entry.ageless

namespace Disk.SameAt

variable {before after : Disk} {location : Location}

theorem of_eq (same : after.find? location = before.find? location) : SameAt location before after :=
  congrArg _ same.symm

theorem absent (same : SameAt location before after) (missing : before.find? location = none) :
    after.find? location = none := by
  rw [SameAt, missing] at same
  simpa using same.symm

theorem file {content : ByteArray} {age : Nat} (same : SameAt location before after)
    (stands : before.find? location = some (.file content age)) :
    ∃ later, after.find? location = some (.file content later) := by
  rw [SameAt, stands] at same
  obtain ⟨entry, found, alike⟩ := Option.map_eq_some_iff.1 same.symm
  cases entry with
  | file other later =>
      cases alike
      exact ⟨later, found⟩
  | link target => cases alike
  | directory => cases alike

theorem directory (same : SameAt location before after)
    (stands : before.find? location = some .directory) : after.find? location = some .directory := by
  rw [SameAt, stands] at same
  obtain ⟨entry, found, alike⟩ := Option.map_eq_some_iff.1 same.symm
  cases entry with
  | file content age => cases alike
  | link target => cases alike
  | directory => exact found

theorem link {target : Path} (same : SameAt location before after)
    (stands : after.find? location = some (.link target)) :
    before.find? location = some (.link target) := by
  rw [SameAt, stands] at same
  obtain ⟨entry, found, alike⟩ := Option.map_eq_some_iff.1 same
  cases entry with
  | file content age => cases alike
  | link other =>
      cases alike
      exact found
  | directory => cases alike

end Disk.SameAt

namespace Document

variable {α : Type} [Document α] {stamps : String → String → α → Prop} {place : Location}
  {disk after : Disk} {times : List String}

/-- Nothing stands at the place before the first save. After saves at some times a document does, with
the stamps of the first and the last of them. -/
inductive Tells (stamps : String → String → α → Prop) (place : Location) (disk : Disk) :
    List String → Prop where
  | nothing : disk.find? place = none → Tells stamps place disk []
  | saved {times : List String} {first last : String} {document : α} {age : Nat} :
      times.head? = some first → times.getLast? = some last → stamps first last document →
      place.Fits → disk.find? place = some (.file (bytes document) age) →
      Tells stamps place disk times

namespace Tells

theorem later (tells : Tells stamps place disk times) (same : disk.SameAt place after) :
    Tells stamps place after times := by
  cases tells with
  | nothing missing => exact .nothing (same.absent missing)
  | saved first last stamped fits stands =>
      obtain ⟨_, standsThen⟩ := same.file stands
      exact .saved first last stamped fits standsThen

theorem not_directory (tells : Tells stamps place disk times) :
    disk.find? place ≠ some .directory := by
  cases tells with
  | nothing missing => exact missing ▸ nofun
  | saved _ _ _ _ stands => exact stands ▸ nofun

theorem absent (tells : Tells stamps place disk []) : disk.find? place = none := by
  cases tells with
  | nothing missing => exact missing
  | saved first _ _ _ _ => cases first

section Straight

variable (named : ∀ name ∈ place, IsName name) (free : disk.LinkFree place)
  (tells : Tells stamps place disk times)

include named tells

theorem text (ever : times ≠ []) : ∃ first last document,
    times.head? = some first ∧ times.getLast? = some last ∧ stamps first last document ∧
      disk.readText (Location.route place) = .ok (documentText (toJson document)) := by
  cases tells with
  | nothing => exact absurd rfl ever
  | @saved _ first last document age head final stamped fits stands =>
      refine ⟨first, last, document, head, final, stamped, ?_⟩
      have read := Disk.inspect_of_stands named stands rfl fits
      unfold Disk.readText Disk.read
      rw [read]
      simp only [bind, Except.bind, fromUTF8?_bytes]

include free

theorem isPresent_iff : disk.isPresent (Location.route place) = true ↔ times ≠ [] := by
  unfold Disk.isPresent
  cases tells with
  | nothing missing =>
      refine iff_of_false ?_ (by simp)
      split
      next entry found => exact absurd (Disk.find?_of_inspect named free found) (missing ▸ nofun)
      next => exact Bool.false_ne_true
  | saved head _ _ fits stands =>
      rw [Disk.inspect_of_stands named stands rfl fits]
      refine iff_of_true rfl ?_
      rintro rfl
      cases head

/-- The time on record is that of the first save. -/
theorem creationOnRecord?_eq
    (speaks : ∀ first last document, stamps first last document →
      recordedCreation? (documentText (toJson document)) = some first) :
    creationOnRecord? disk (Location.route place) = times.head? := by
  unfold creationOnRecord?
  by_cases never : times = []
  · subst never
    unfold Disk.readText Disk.read
    cases inspected : disk.inspect (Location.route place) with
    | error fault => rfl
    | ok entry =>
        exact absurd (Disk.find?_of_inspect named free inspected) (tells.absent ▸ nofun)
  · obtain ⟨first, last, document, head, _, stamped, read⟩ := tells.text named never
    rw [read, head]
    exact speaks first last document stamped

end Straight

theorem stamped {document : α} {now : String} (tells : Tells stamps place disk times)
    (named : ∀ name ∈ place, IsName name) (free : disk.LinkFree place) (fits : place.Fits)
    (speaks : ∀ first last document, stamps first last document →
      recordedCreation? (documentText (toJson document)) = some first)
    (fresh : ∀ prior, stamps (prior.getD now) now (Document.stamped document prior now))
    (stampedAt : StampedAt document place disk now after) :
    Tells stamps place after (times ++ [now]) := by
  obtain ⟨between, leaves, stands⟩ := stampedAt
  have still := tells.later (.of_eq leaves.same)
  rw [still.creationOnRecord?_eq named (leaves.changes.linkFree free) speaks] at stands
  have head : (times ++ [now]).head? = some (times.head?.getD now) := by
    cases times <;> rfl
  exact .saved head (by simp) (fresh times.head?) fits stands

end Tells

end Document

theorem firstWritten_fresh (prior : Option String) (now : String) :
    firstWritten prior "" now = prior.getD now := by
  cases prior <;> rfl

namespace ChecksumBaseline

variable {baseline : ChecksumBaseline} {place : Location} {disk : Disk} {times : List String}

/-- The stamps of a first and a last save. -/
def Stamps (first last : String) (baseline : ChecksumBaseline) : Prop :=
  baseline.createdAt = first ∧ baseline.timestamp = last ∧ baseline.fileCount < countBound

theorem stamps_fresh (fresh : baseline.createdAt = "") (fits : baseline.files.size < countBound)
    (prior : Option String) (now : String) :
    Stamps (prior.getD now) now (Document.stamped baseline prior now) := by
  refine ⟨?_, rfl, fits⟩
  exact (congrArg (firstWritten prior · now) fresh).trans (firstWritten_fresh prior now)

theorem load_of_tells (tells : Document.Tells Stamps place disk times)
    (named : ∀ name ∈ place, IsName name) (ever : times ≠ []) :
    ∃ baseline, load disk (Location.route place) = .ok (some baseline) ∧
      times.head? = some baseline.createdAt ∧ times.getLast? = some baseline.timestamp := by
  obtain ⟨first, last, baseline, head, final, stamped, read⟩ := tells.text named ever
  obtain ⟨rfl, rfl, fits⟩ := stamped
  refine ⟨baseline, ?_, head, final⟩
  have decoded := ofText?_documentText fits
  rw [load, loadText?, read]
  simp only [bind, Except.bind, pure, Except.pure, Option.bind_some]
  exact congrArg Except.ok decoded

end ChecksumBaseline

namespace SymbolBaseline

variable {place : Location} {disk : Disk} {times : List String}

/-- The stamps of a first and a last save. -/
def Stamps (first last : String) (baseline : SymbolBaseline) : Prop :=
  baseline.createdAt = first ∧ baseline.updatedAt = last ∧ baseline.schemaVersion ≠ ""

theorem stamps_fresh (root : String) (symbols : SymbolMap) (prior : Option String) (now : String) :
    Stamps (prior.getD now) now (Document.stamped (fresh root symbols) prior now) := by
  refine ⟨firstWritten_fresh prior now, rfl, ?_⟩
  change SourceBaseline.schemaVersion ≠ ""
  decide

theorem load_of_tells (tells : Document.Tells Stamps place disk times)
    (named : ∀ name ∈ place, IsName name) (ever : times ≠ []) :
    ∃ baseline, load disk (Location.route place) = .ok (some baseline) ∧
      times.head? = some baseline.createdAt ∧ times.getLast? = some baseline.updatedAt := by
  obtain ⟨first, last, baseline, head, final, stamped, read⟩ := tells.text named ever
  obtain ⟨rfl, rfl, versioned⟩ := stamped
  refine ⟨baseline, ?_, head, final⟩
  have decoded := ofText?_documentText versioned
  rw [load, loadText?, read]
  simp only [bind, Except.bind, pure, Except.pure, Option.bind_some]
  exact congrArg Except.ok decoded

end SymbolBaseline

end SourceBaseline
