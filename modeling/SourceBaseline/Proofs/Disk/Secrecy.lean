import SourceBaseline.Proofs.Disk.Alike
import SourceBaseline.Proofs.Disk.Resemblance

/-!
# Disks with other secrets

Two disks resemble each other if they differ in nothing but what hidden files hold. Walks come to the
same on both, and so does every change that does not move a hidden file. Only reading a hidden file
tells them apart.
-/

set_option autoImplicit false

namespace SourceBaseline.Disk

variable {hidden : Location → Prop} {first second after other : Disk} {route newRoute : Route}
  {location directory : Location} {name : String}

/-- The disks differ in nothing but what hidden files hold. -/
def Resembles (hidden : Location → Prop) (first second : Disk) : Prop :=
  ∀ location, first.find? location = second.find? location ∨
    hidden location ∧ ∃ content other age, first.find? location = some (.file content age) ∧
      second.find? location = some (.file other age)

theorem Resembles.symm (resembles : Resembles hidden first second) : Resembles hidden second first := by
  intro location
  rcases resembles location with same | ⟨secret, content, other, age, stands, standsToo⟩
  · exact .inl same.symm
  · exact .inr ⟨secret, other, content, age, standsToo, stands⟩

theorem resembles_put {disk : Disk} {content otherContent : ByteArray} {age : Nat}
    (ready : disk.find? directory = some .directory)
    (free : disk.find? (directory ++ [name]) ≠ some .directory) (secret : hidden (directory ++ [name])) :
    Resembles hidden (disk.put directory name (.file content age))
      (disk.put directory name (.file otherContent age)) := by
  intro location
  rw [find?_put ready free, find?_put ready free]
  split
  next here => exact .inr ⟨here ▸ secret, content, otherContent, age, rfl, rfl⟩
  next => exact .inl rfl

theorem Resembles.find? (resembles : Resembles hidden first second) (seen : ¬ hidden location) :
    first.find? location = second.find? location := by
  rcases resembles location with same | ⟨secret, _⟩
  · exact same
  · exact absurd secret seen

theorem Resembles.retains (resembles : Resembles hidden first second) :
    Retains (fun _ => False) first second := by
  intro location entry stands
  rcases resembles location with same | ⟨_, content, other, age, found, foundToo⟩
  · exact .inl (same ▸ stands)
  · cases stands.symm.trans found
    exact .inr ⟨content, age, rfl, .inr ⟨other, age, foundToo⟩⟩

theorem Resembles.isDirectoryAt (resembles : Resembles hidden first second) :
    first.isDirectoryAt location = second.isDirectoryAt location := by
  unfold Disk.isDirectoryAt
  rcases resembles location with same | ⟨_, content, other, age, stands, standsToo⟩
  · rw [same]
  · rw [stands, standsToo]
    rfl

theorem Resembles.linkFree (resembles : Resembles hidden first second)
    (free : first.LinkFree location) : second.LinkFree location := by
  intro top target within link
  rcases resembles top with same | ⟨_, _, _, _, _, file⟩
  · exact free top target within (same.trans link)
  · cases link.symm.trans file

theorem Repeats.eq {walked walkedToo : Except Fault (Location × Nat)}
    (repeats : Repeats (fun _ => False) walked walkedToo)
    (repeatsToo : Repeats (fun _ => False) walkedToo walked) : walked = walkedToo := by
  cases repeats with
  | same => rfl
  | missing =>
      cases repeatsToo with
      | same => rfl
      | missing => rfl
      | blocked lost => exact lost.elim
      | ended lost => exact lost.elim
  | blocked lost => exact lost.elim
  | ended lost => exact lost.elim

section Looking

variable (resembles : Resembles hidden first second)

include resembles

theorem Resembles.walkTo {followLast : Bool} {links : Nat} {names : List String} :
    first.walkTo followLast links first.start names =
      second.walkTo followLast links second.start names :=
  (resembles.retains.walkTo .top .top rfl).eq (resembles.symm.retains.walkTo .top .top rfl)

theorem Resembles.locate : first.locate route = second.locate route := by
  unfold Disk.locate
  rw [resembles.walkTo]

theorem Resembles.locateLink : first.locateLink route = second.locateLink route := by
  unfold Disk.locateLink
  rw [resembles.walkTo]

theorem Resembles.canonical {path : Path} : first.canonical path = second.canonical path := by
  unfold Disk.canonical
  rw [resembles.walkTo]

theorem Resembles.slot {special : Fault} : first.slot special route = second.slot special route := by
  unfold Disk.slot slotFrom
  simp only [resembles.walkTo, resembles.isDirectoryAt]

/-- What is found on both disks is the same, or a file on both. -/
inductive Similar : Except Fault Entry → Except Fault Entry → Prop where
  | same {found} : Similar found found
  | file {content other age} : Similar (.ok (.file content age)) (.ok (.file other age))

theorem Resembles.look (location : Location) :
    Similar
      (match first.find? location with
        | some entry => .ok entry
        | none => .error .notFound)
      (match second.find? location with
        | some entry => .ok entry
        | none => .error .notFound) := by
  rcases resembles location with same | ⟨_, content, other, age, stands, standsToo⟩
  · rw [same]
    exact .same
  · rw [stands, standsToo]
    exact .file

theorem Resembles.inspect : Similar (first.inspect route) (second.inspect route) := by
  unfold Disk.inspect
  rw [resembles.locate]
  cases second.locate route with
  | error fault => exact .same
  | ok place => exact resembles.look place

theorem Resembles.inspectLink : Similar (first.inspectLink route) (second.inspectLink route) := by
  unfold Disk.inspectLink
  rw [resembles.locateLink]
  cases second.locateLink route with
  | error fault => exact .same
  | ok place => exact resembles.look place

/-- What is found is the same on both disks, unless it is what a hidden file holds. -/
theorem Resembles.inspect_eq (seen : ∀ place content age, first.locate route = .ok place →
      first.find? place = some (.file content age) → ¬ hidden place) :
    first.inspect route = second.inspect route := by
  unfold Disk.inspect
  rw [← resembles.locate]
  cases located : first.locate route with
  | error fault => rfl
  | ok place =>
      rcases resembles place with same | ⟨secret, content, _, age, stands, _⟩
      · simp only [bind, Except.bind, same]
      · exact absurd secret (seen place content age located stands)

theorem Resembles.isPresent : first.isPresent route = second.isPresent route := by
  have similar : Similar (first.inspect route) (second.inspect route) := resembles.inspect
  unfold Disk.isPresent
  revert similar
  generalize first.inspect route = found
  generalize second.inspect route = foundToo
  intro similar
  cases similar <;> rfl

theorem Resembles.isDirectory : first.isDirectory route = second.isDirectory route := by
  have similar : Similar (first.inspect route) (second.inspect route) := resembles.inspect
  unfold Disk.isDirectory
  revert similar
  generalize first.inspect route = found
  generalize second.inspect route = foundToo
  intro similar
  cases similar <;> rfl

theorem Resembles.isFile : first.isFile route = second.isFile route := by
  have similar : Similar (first.inspect route) (second.inspect route) := resembles.inspect
  unfold Disk.isFile
  revert similar
  generalize first.inspect route = found
  generalize second.inspect route = foundToo
  intro similar
  cases similar <;> rfl

/-! ## Changing -/

theorem Resembles.becomes {place : Location} {value : Option Entry}
    (changed : first.Becomes place value after) (otherChanged : second.Becomes place value other) :
    Resembles hidden after other := by
  intro location
  rw [changed location, otherChanged location]
  split
  next => exact .inl rfl
  next => exact resembles location

theorem Resembles.place {entry : Entry} :
    After (Resembles hidden) (first.place directory name entry) (second.place directory name entry) :=
  after_place resembles.isDirectoryAt resembles.isDirectoryAt resembles.becomes

theorem Resembles.create {slot : Location × String} {entry : Entry} :
    After (Resembles hidden) (first.create slot entry) (second.create slot entry) := by
  unfold Disk.create
  rcases resembles (slot.1 ++ [slot.2]) with same | ⟨_, content, other, age, stands, standsToo⟩
  · rw [same]
    cases second.find? (slot.1 ++ [slot.2]) with
    | some _ => exact .failed
    | none => exact resembles.place
  · rw [stands, standsToo]
    exact .failed

theorem Resembles.unlink :
    After (Resembles hidden) (first.unlink location) (second.unlink location) := by
  refine after_unlink ?_ resembles.becomes
  rcases resembles location with same | ⟨_, content, other, age, stands, standsToo⟩
  · exact .inl same
  · exact .inr ⟨content, age, other, age, stands, standsToo⟩

theorem Resembles.createFile (content : ByteArray) :
    After (Resembles hidden) (first.createFile route content) (second.createFile route content) := by
  unfold Disk.createFile
  rw [resembles.slot]
  cases second.slot .exists route with
  | error fault => exact .failed
  | ok slot => exact resembles.create

theorem Resembles.createDirectory :
    After (Resembles hidden) (first.createDirectory route) (second.createDirectory route) := by
  unfold Disk.createDirectory
  rw [resembles.slot]
  cases second.slot .exists { route with names := route.bareNames } with
  | error fault => exact .failed
  | ok slot => exact resembles.create

theorem Resembles.removeFile :
    After (Resembles hidden) (first.removeFile route) (second.removeFile route) := by
  unfold Disk.removeFile
  rw [resembles.slot]
  cases second.slot .isDirectory route with
  | error fault => exact .failed
  | ok slot => exact resembles.unlink

/-- Only a hidden file would take its secret to another place. -/
theorem Resembles.rename
    (seen : ∀ parent name, first.slot .busy route = .ok (parent, name) → ¬ hidden (parent ++ [name])) :
    After (Resembles hidden) (first.rename route newRoute) (second.rename route newRoute) := by
  unfold Disk.rename
  rw [← resembles.slot, ← resembles.slot]
  cases found : first.slot .busy route with
  | error fault => exact .failed
  | ok slot =>
      cases first.slot .busy { newRoute with names := newRoute.bareNames } with
      | error fault => exact .failed
      | ok newSlot =>
          simp only [bind, Except.bind]
          rw [resembles.find? (seen slot.1 slot.2 found)]
          split
          next => exact .failed
          next => exact .failed
          next entry _ _ =>
            split
            next => exact .failed
            next =>
              split
              next => exact .failed
              next =>
                split
                next => exact .changed resembles
                next =>
                  refine After.bind resembles.place ?_
                  intro placed placedToo _ _ resemblesThen
                  exact resemblesThen.unlink

theorem Resembles.ensureDirectory {routes : List Route} :
    (first.ensureDirectory routes).1 = (second.ensureDirectory routes).1 ∧
      Resembles hidden (first.ensureDirectory routes).2 (second.ensureDirectory routes).2 := by
  induction routes generalizing first second with
  | nil => exact ⟨rfl, resembles⟩
  | cons route parents ih =>
      have ensured := ih resembles
      exact ensureDirectory_cons_congr resembles resembles.createDirectory resembles.isDirectory
        ensured ensured.2.createDirectory ensured.2.isDirectory

end Looking

/-- In a directory in which nothing is hidden, disks that resemble each other are treated alike. -/
theorem parallel_resembles (named : ∀ name ∈ directory, IsName name)
    (seen : ∀ name, ¬ hidden (directory ++ [name])) : Parallel (Resembles hidden) directory where
  linkFree resembles free := resembles.linkFree free
  ensures resembles _ := resembles.ensureDirectory
  creates content resembles _ _ := resembles.createFile content
  removes resembles _ _ := resembles.removeFile
  renames {first second name newName} resembles isName _ free := by
    apply resembles.rename
    intro parent last found
    rw [slot_eq_approach (Location.named_concat named isName) free] at found
    cases approached : approach first.find? directory name with
    | error fault =>
        rw [approached] at found
        cases found
    | ok _ =>
        rw [approached] at found
        cases found
        exact seen name
  inspects {first second name} resembles isName free := by
    apply resembles.inspect_eq
    intro place _ _ located _
    rw [eq_of_locate (Location.named_concat named isName) free located]
    exact seen name
  finds {first second name} resembles _ _ := by
    have similar : Similar (first.inspectLink (Location.route (directory ++ [name])))
        (second.inspectLink (Location.route (directory ++ [name]))) := resembles.inspectLink
    revert similar
    generalize first.inspectLink _ = found
    generalize second.inspectLink _ = foundToo
    intro similar
    cases similar <;> rfl

end SourceBaseline.Disk
