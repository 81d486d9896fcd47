import SourceBaseline.Proofs.Disk.Secrecy
import SourceBaseline.Proofs.Walk.Enumeration

/-!
# Walks over disks with other secrets

A path leads to the same place on disks that resemble each other, whatever hidden files hold. A walk
that keeps no hidden file lists the same on both, and what it lists reads the same, as long as no link
that it keeps leads to a hidden file.
-/

set_option autoImplicit false

namespace SourceBaseline

def Entry.isFile : Entry → Bool
  | .file _ _ => true
  | _ => false

variable {hidden : Location → Prop} {first second : Disk}

namespace Boundary

variable {boundary : Boundary} {path : Path}

theorem proceed_of_resembles (resembles : Disk.Resembles hidden first second)
    {onLink : Location → String → Path → List Component → Outcome Location} {missing : Bool}
    {here : Location} {parts : List Component} :
    proceed first onLink missing here parts = proceed second onLink missing here parts := by
  induction parts generalizing missing here with
  | nil => cases missing <;> rfl
  | cons part rest ih =>
      cases part with
      | root => cases missing <;> simpa only [proceed] using ih
      | here => cases missing <;> simpa only [proceed] using ih
      | up => cases missing <;> simpa only [proceed] using ih
      | name name =>
          cases missing with
          | true => simpa only [proceed] using ih
          | false =>
              have similar : Disk.Similar (first.inspectLink (Location.route (here ++ [name])))
                  (second.inspectLink (Location.route (here ++ [name]))) := resembles.inspectLink
              rw [proceed, proceed]
              revert similar
              generalize first.inspectLink _ = found
              generalize second.inspectLink _ = foundToo
              intro similar
              cases similar with
              | same =>
                  split
                  next => exact ih
                  next => rfl
                  next => rfl
                  next => exact ih
              | file => exact ih

theorem resolve_of_resembles (resembles : Disk.Resembles hidden first second) {shown : String}
    {budget : Nat} {here : Location} {parts : List Component} :
    boundary.resolve first shown budget here parts =
      boundary.resolve second shown budget here parts := by
  induction budget generalizing here parts with
  | zero => exact proceed_of_resembles resembles
  | succ budget ih =>
      rw [resolve, resolve]
      simp only [ih]
      exact proceed_of_resembles resembles

theorem validate_of_resembles (resembles : Disk.Resembles hidden first second) :
    boundary.validate first path = boundary.validate second path := by
  unfold validate
  simp only [resolve_of_resembles resembles]

theorem open?_of_resembles (resembles : Disk.Resembles hidden first second) {linkBudget : Nat} :
    open? first path linkBudget = open? second path linkBudget := by
  have same : first.canonical path = second.canonical path := resembles.canonical
  unfold open?
  split
  next location found =>
    rw [same] at found
    split
    next other foundToo =>
      cases found.symm.trans foundToo
      rfl
    next fault failed => cases found.symm.trans failed
  next fault failed =>
    rw [same] at failed
    split
    next other foundToo => cases failed.symm.trans foundToo
    next other failedToo =>
      cases failed.symm.trans failedToo
      rfl

/-- Who reads where the path leads reads no hidden file, also if a link stands there. -/
def Avoids (boundary : Boundary) (disk : Disk) (hidden : Location → Prop) (path : Path) : Prop :=
  ∀ place found content age, boundary.validate disk path = .ok place →
    disk.locate (Location.route place) = .ok found →
    disk.find? found = some (.file content age) → ¬ hidden found

instance (boundary : Boundary) (disk : Disk) (hidden : Location → Prop) [DecidablePred hidden]
    (path : Path) : Decidable (boundary.Avoids disk hidden path) :=
  decidable_of_iff
    (∀ place ∈ (boundary.validate disk path).toOption,
      ∀ found ∈ (disk.locate (Location.route place)).toOption,
        (disk.find? found).any Entry.isFile → ¬ hidden found) (by
      constructor
      · intro all place found content age valid located stands
        exact all place (toOption_eq_some_iff.2 valid) found (toOption_eq_some_iff.2 located)
          (by simp [stands, Entry.isFile])
      · intro avoids place valid found located isFile
        obtain ⟨entry, stands, isFile⟩ := (Option.any_eq_true _ _).1 isFile
        cases entry with
        | file content age =>
            exact avoids place found content age (toOption_eq_some_iff.1 valid)
              (toOption_eq_some_iff.1 located) stands
        | directory => cases isFile
        | link target => cases isFile)

theorem Avoids.answersAlike (avoids : boundary.Avoids first hidden path)
    (resembles : Disk.Resembles hidden first second) : boundary.AnswersAlike first second path where
  place := validate_of_resembles resembles
  found place valid := resembles.inspect_eq fun found content age located stands =>
    avoids place found content age valid located stands

end Boundary

namespace Walk

variable {walk : Walk} {deadline : Deadline} {names : List String} {entry : Entry}
  (resembles : Disk.Resembles hidden first second)

include resembles

theorem tracked?_of_resembles :
    walk.tracked? first names entry = walk.tracked? second names entry := by
  unfold tracked?
  rw [Boundary.validate_of_resembles resembles]
  simp only [resembles.isFile]

variable (seen : ∀ names, walk.Keeps names → ¬ hidden (walk.boundary.root ++ names))

include seen

theorem find?_of_keeps (keeps : walk.Keeps names) :
    first.find? (walk.boundary.root ++ names) = second.find? (walk.boundary.root ++ names) :=
  resembles.find? (seen names keeps)

theorem listed_of_resembles : walk.listed first = walk.listed second := by
  apply listed_congr
  · rintro ⟨names, entry⟩
    rw [mem_kept_iff, mem_kept_iff]
    by_cases keeps : walk.Keeps names
    · rw [find?_of_keeps resembles seen keeps]
    · simp only [keeps, and_false]
  · intro names entry _
    exact tracked?_of_resembles resembles

/-- What is listed does not depend on what hidden files hold. -/
theorem enumerate_of_resembles :
    walk.enumerate first deadline = walk.enumerate second deadline := by
  rw [enumerate_eq, enumerate_eq, listed_of_resembles resembles seen]

theorem inspect_of_resembles (named : first.Named)
    (links : ∀ names target, (names, .link target) ∈ walk.kept first →
      walk.boundary.Avoids first hidden (Location.path (walk.boundary.root ++ names)))
    {file : TrackedFile} (listed : file ∈ walk.listed first) :
    first.inspect file.absolute.route = second.inspect file.absolute.route := by
  obtain ⟨names, entry, kept, tracked⟩ := mem_listed_iff_kept.1 listed
  obtain ⟨inner, stands, _, keeps⟩ := mem_kept_iff.1 kept
  obtain ⟨_, valid⟩ := validate_of_tracked? tracked
  have isName := named.of_stands stands
  cases entry with
  | directory => cases tracked?_directory.symm.trans tracked
  | link target => exact ((links names target kept).answersAlike resembles).found _ valid
  | file content age =>
      obtain ⟨same, _⟩ := (Boundary.validate_eq_ok_iff isName stands rfl (List.prefix_append _ _)
        (by simp [inner])).1 valid
      apply resembles.inspect_eq
      intro place _ _ located _
      rw [same] at located
      rw [Disk.eq_of_locate isName (Disk.linkFree_of_stands stands rfl) located]
      exact seen names keeps

end Walk

theorem documentation?_of_resembles {boundary : Boundary}
    (resembles : Disk.Resembles hidden first second) :
    documentation? first boundary = documentation? second boundary := by
  apply List.find?_congr
  intro name _
  rw [Boundary.validate_of_resembles resembles]
  simp only [resembles.isDirectory]

end SourceBaseline
