import SourceBaseline.Proofs.Disk.Change
import SourceBaseline.Proofs.Disk.Tree

/-!
# Disks that agree around the root

Two disks are alike if the same stands on both on the way to the root, at the root and below it. What
is read behind no link there is the same on both, and a change that is made there on both either
fails with the same fault or leaves disks that are alike.
-/

set_option autoImplicit false

namespace SourceBaseline

/-- The location is on the way to the root, or the root, or below it. -/
def Location.Overlaps (location root : Location) : Prop :=
  location <+: root ∨ root <+: location

instance (location root : Location) : Decidable (location.Overlaps root) :=
  inferInstanceAs (Decidable (_ ∨ _))

theorem Location.Overlaps.above {location top root : Location} (overlaps : location.Overlaps root)
    (within : top <+: location) : top.Overlaps root := by
  rcases overlaps with before | below
  · exact .inl (within.trans before)
  · exact List.prefix_or_prefix_of_prefix within below

namespace Disk

variable {root location directory : Location} {name : String} {first second after other : Disk}

/-- The same stands on both disks on the way to the root, at the root and below it. -/
def Alike (root : Location) (first second : Disk) : Prop :=
  ∀ location, location.Overlaps root → first.find? location = second.find? location

theorem Alike.agreesTo (alike : first.Alike root second) (overlaps : location.Overlaps root) :
    first.AgreesTo location second :=
  fun top within => alike top (overlaps.above within)

theorem Alike.linkFree (alike : first.Alike root second) (overlaps : location.Overlaps root)
    (free : first.LinkFree location) : second.LinkFree location :=
  (alike.agreesTo overlaps).linkFree free

theorem Alike.below (alike : first.Alike root second) : first.below root = second.below root :=
  below_congr fun location within => alike location (.inr within)

theorem Alike.isDirectoryAt (alike : first.Alike root second) (overlaps : location.Overlaps root) :
    first.isDirectoryAt location = second.isDirectoryAt location := by
  unfold Disk.isDirectoryAt
  rw [alike location overlaps]

theorem alike_put {disk : Disk} {entry : Entry} (ready : disk.find? directory = some .directory)
    (free : disk.find? (directory ++ [name]) ≠ some .directory)
    (apart : ¬ Location.Overlaps (directory ++ [name]) root) :
    disk.Alike root (disk.put directory name entry) := by
  intro location overlaps
  rw [find?_put ready free, if_neg]
  intro same
  exact apart (same ▸ overlaps)

/-! ## Reading -/

theorem Alike.inspectLink (alike : first.Alike root second) (overlaps : location.Overlaps root)
    (named : ∀ name ∈ location, IsName name) (free : first.LinkFree location.dropLast) :
    first.inspectLink (Location.route location) = second.inspectLink (Location.route location) :=
  (alike.agreesTo overlaps).inspectLink named free

theorem Alike.inspect (alike : first.Alike root second) (overlaps : location.Overlaps root)
    (named : ∀ name ∈ location, IsName name) (free : first.LinkFree location) :
    first.inspect (Location.route location) = second.inspect (Location.route location) :=
  (alike.agreesTo overlaps).inspect named free

/-! ## Changing -/

theorem Alike.becomes {place : Location} {value : Option Entry} (alike : first.Alike root second)
    (changed : first.Becomes place value after) (otherChanged : second.Becomes place value other) :
    after.Alike root other := by
  intro location overlaps
  rw [changed location, otherChanged location, alike location overlaps]

/-- Both changes fail alike, or both leave disks that are related. -/
inductive After {ε : Type} (alike : Disk → Disk → Prop) : Except ε Disk → Except ε Disk → Prop where
  | changed {first second : Disk} : alike first second → After alike (.ok first) (.ok second)
  | failed {fault : ε} : After alike (.error fault) (.error fault)

namespace After

variable {ε : Type} {alike : Disk → Disk → Prop} {step otherStep : Except ε Disk}

theorem outcomes (both : After alike step otherStep) :
    (∃ first second, step = .ok first ∧ otherStep = .ok second ∧ alike first second) ∨
      ∃ fault, step = .error fault ∧ otherStep = .error fault := by
  cases both with
  | changed alike => exact .inl ⟨_, _, rfl, rfl, alike⟩
  | failed => exact .inr ⟨_, rfl, rfl⟩

theorem bind {next otherNext : Disk → Except ε Disk} (begins : After alike step otherStep)
    (continues : ∀ first second, step = .ok first → otherStep = .ok second →
      alike first second → After alike (next first) (otherNext second)) :
    After alike (step >>= next) (otherStep >>= otherNext) := by
  cases begins with
  | changed alike => exact continues _ _ rfl rfl alike
  | failed => exact .failed

theorem after_same {check otherCheck : Except ε Unit} (same : check = otherCheck)
    (continues : After alike step otherStep) :
    After alike (check >>= fun _ => step) (otherCheck >>= fun _ => otherStep) := by
  subst same
  cases check with
  | error fault => exact .failed
  | ok _ => exact continues

end After

section Steps

variable {alike : Disk → Disk → Prop}

/-- An entry is put at the same place on both disks if directories stand alike there. -/
theorem after_place {entry : Entry}
    (sameParent : first.isDirectoryAt directory = second.isDirectoryAt directory)
    (sameSlot : first.isDirectoryAt (directory ++ [name]) =
      second.isDirectoryAt (directory ++ [name]))
    (put : ∀ {after other}, first.Becomes (directory ++ [name]) (some entry) after →
      second.Becomes (directory ++ [name]) (some entry) other → alike after other) :
    After alike (first.place directory name entry) (second.place directory name entry) := by
  unfold Disk.place
  by_cases long : nameLimit < name.utf8ByteSize
  · rw [if_pos long, if_pos long]
    exact .failed
  rw [if_neg long, if_neg long, ← sameParent, ← sameSlot]
  by_cases ready : first.isDirectoryAt directory = true
  · rw [if_pos ready, if_pos ready]
    by_cases taken : first.isDirectoryAt (directory ++ [name]) = true
    · rw [if_pos taken, if_pos taken]
      exact .failed
    · rw [if_neg taken, if_neg taken]
      have readyToo := sameParent ▸ ready
      have takenToo := sameSlot ▸ taken
      rw [isDirectoryAt, decide_eq_true_eq] at ready taken readyToo takenToo
      exact .changed (put (becomes_of_put ready taken) (becomes_of_put readyToo takenToo))
  · rw [if_neg ready, if_neg ready]
    exact .failed

/-- What stands at a place is removed on both disks if it is the same or a file on both. -/
theorem after_unlink
    (standing : first.find? location = second.find? location ∨
      ∃ content age other otherAge, first.find? location = some (.file content age) ∧
        second.find? location = some (.file other otherAge))
    (gone : ∀ {after other}, first.Becomes location none after →
      second.Becomes location none other → alike after other) :
    After alike (first.unlink location) (second.unlink location) := by
  have removed : ∀ {disk : Disk} {entry : Entry}, disk.find? location = some entry →
      entry ≠ .directory → disk.unlink location = .ok (disk.remove location) := by
    intro disk entry stands leaf
    unfold unlink
    rw [stands]
    cases entry with
    | directory => exact absurd rfl leaf
    | file content age => rfl
    | link target => rfl
  have both : ∀ {entry other : Entry}, first.find? location = some entry →
      second.find? location = some other → entry ≠ .directory → other ≠ .directory →
      After alike (first.unlink location) (second.unlink location) := by
    intro entry other stands standsToo leaf leafToo
    have removes := removed stands leaf
    have removesToo := removed standsToo leafToo
    rw [removes, removesToo]
    exact .changed (gone (becomes_of_unlink removes).2 (becomes_of_unlink removesToo).2)
  rcases standing with same | ⟨content, age, other, otherAge, stands, standsToo⟩
  · cases stands : first.find? location with
    | none =>
        unfold unlink
        rw [← same, stands]
        exact .failed
    | some entry =>
        by_cases directory : entry = .directory
        · unfold unlink
          rw [← same, stands, directory]
          exact .failed
        · exact both stands (same ▸ stands) directory directory
  · exact both stands standsToo (by simp) (by simp)

end Steps

section Changes

variable (alike : first.Alike root second) (overlaps : Location.Overlaps (directory ++ [name]) root)

include alike overlaps

theorem Alike.approach : Disk.approach first.find? directory name = Disk.approach second.find? directory name := by
  apply approach_congr
  intro top within
  exact alike top ((overlaps.above (List.prefix_append _ _)).above within)

theorem Alike.place (entry : Entry) :
    After (Alike root) (first.place directory name entry) (second.place directory name entry) :=
  after_place (alike.isDirectoryAt (overlaps.above (List.prefix_append directory [name])))
    (alike.isDirectoryAt overlaps) alike.becomes

theorem Alike.create (entry : Entry) :
    After (Alike root) (first.create (directory, name) entry) (second.create (directory, name) entry) := by
  unfold Disk.create
  dsimp only
  rw [alike _ overlaps]
  cases second.find? (directory ++ [name]) with
  | some _ => exact .failed
  | none => exact alike.place overlaps entry

theorem Alike.unlink :
    After (Alike root) (first.unlink (directory ++ [name])) (second.unlink (directory ++ [name])) :=
  after_unlink (.inl (alike _ overlaps)) alike.becomes

section Routes

variable (named : ∀ other ∈ directory ++ [name], IsName other) (free : first.LinkFree directory)

include named free

theorem Alike.createFile (content : ByteArray) :
    After (Alike root) (first.createFile (Location.route (directory ++ [name])) content)
      (second.createFile (Location.route (directory ++ [name])) content) := by
  have freeToo := alike.linkFree (overlaps.above (List.prefix_append _ _)) free
  rw [createFile_eq named free, createFile_eq named freeToo]
  exact .after_same (alike.approach overlaps) (alike.create overlaps _)

theorem Alike.createDirectory :
    After (Alike root) (first.createDirectory (Location.route (directory ++ [name])))
      (second.createDirectory (Location.route (directory ++ [name]))) := by
  have freeToo := alike.linkFree (overlaps.above (List.prefix_append _ _)) free
  rw [createDirectory_eq named free, createDirectory_eq named freeToo]
  exact .after_same (alike.approach overlaps) (alike.create overlaps _)

theorem Alike.removeFile :
    After (Alike root) (first.removeFile (Location.route (directory ++ [name])))
      (second.removeFile (Location.route (directory ++ [name]))) := by
  have freeToo := alike.linkFree (overlaps.above (List.prefix_append _ _)) free
  rw [removeFile_eq named free, removeFile_eq named freeToo]
  exact .after_same (alike.approach overlaps) (alike.unlink overlaps)

theorem Alike.rename {newName : String} (isName : IsName newName)
    (newOverlaps : Location.Overlaps (directory ++ [newName]) root) :
    After (Alike root)
      (first.rename (Location.route (directory ++ [name])) (Location.route (directory ++ [newName])))
      (second.rename (Location.route (directory ++ [name]))
        (Location.route (directory ++ [newName]))) := by
  have freeToo := alike.linkFree (overlaps.above (List.prefix_append _ _)) free
  rw [rename_eq named free isName, rename_eq named freeToo isName, alike _ overlaps]
  refine .after_same (alike.approach overlaps) (.after_same (alike.approach newOverlaps) ?_)
  split
  next => exact .failed
  next => exact .failed
  next entry _ _ =>
    by_cases long : nameLimit < newName.utf8ByteSize
    · rw [if_pos long, if_pos long]
      exact .failed
    · rw [if_neg long, if_neg long]
      by_cases same : name = newName
      · rw [if_pos same, if_pos same]
        exact .changed alike
      · rw [if_neg same, if_neg same]
        refine (alike.place newOverlaps entry).bind ?_
        intro placed otherPlaced _ _ alikeThen
        exact alikeThen.unlink overlaps

end Routes

end Changes

theorem Alike.isDirectory (alike : first.Alike root second) (overlaps : location.Overlaps root)
    (named : ∀ name ∈ location, IsName name) (free : first.LinkFree location) :
    first.isDirectory (Location.route location) = second.isDirectory (Location.route location) := by
  unfold Disk.isDirectory
  rw [alike.inspect overlaps named free]

theorem ensureDirectory_cons_congr {alike : Disk → Disk → Prop} {route : Route}
    {parents : List Route} (related : alike first second)
    (creates : After alike (first.createDirectory route) (second.createDirectory route))
    (looks : first.isDirectory route = second.isDirectory route)
    (ensures : (first.ensureDirectory parents).1 = (second.ensureDirectory parents).1 ∧
      alike (first.ensureDirectory parents).2 (second.ensureDirectory parents).2)
    (createsThen : After alike ((first.ensureDirectory parents).2.createDirectory route)
      ((second.ensureDirectory parents).2.createDirectory route))
    (looksThen : (first.ensureDirectory parents).2.isDirectory route =
      (second.ensureDirectory parents).2.isDirectory route) :
    (first.ensureDirectory (route :: parents)).1 = (second.ensureDirectory (route :: parents)).1 ∧
      alike (first.ensureDirectory (route :: parents)).2
        (second.ensureDirectory (route :: parents)).2 := by
  rw [Disk.ensureDirectory, Disk.ensureDirectory]
  by_cases empty : route.path.text = ""
  · rw [if_pos empty, if_pos empty]
    exact ⟨rfl, related⟩
  rw [if_neg empty, if_neg empty]
  -- The directory itself is tried first, and what is above it only if it cannot be made.
  rcases creates.outcomes with
    ⟨made, otherMade, created, otherCreated, relatedThen⟩ | ⟨fault, failed, otherFailed⟩
  · rw [created, otherCreated]
    exact ⟨rfl, relatedThen⟩
  rw [failed, otherFailed]
  dsimp only
  split
  next impossible => cases impossible
  next =>
    -- Both results are generalized at once, since the code goes on from the pair.
    revert ensures createsThen looksThen
    generalize first.ensureDirectory parents = firstEnsured
    generalize second.ensureDirectory parents = secondEnsured
    obtain ⟨result, changed⟩ := firstEnsured
    obtain ⟨otherResult, otherChanged⟩ := secondEnsured
    rintro ⟨same, relatedThen⟩ createsThen looksThen
    dsimp only at same relatedThen createsThen looksThen
    subst same
    cases result with
    | error fault => exact ⟨rfl, relatedThen⟩
    | ok _ =>
        dsimp only
        rcases createsThen.outcomes with
          ⟨made, otherMade, created, otherCreated, relatedLast⟩ | ⟨fault, failed, otherFailed⟩
        · rw [created, otherCreated]
          exact ⟨rfl, relatedLast⟩
        · rw [failed, otherFailed, looksThen]
          exact ⟨rfl, relatedThen⟩
  next =>
    rw [looks]
    exact ⟨rfl, related⟩

theorem Alike.ensureDirectory {top : Location} (alike : first.Alike root second)
    (overlaps : top.Overlaps root) (named : ∀ name ∈ top, IsName name) (free : first.LinkFree top) :
    (first.ensureDirectory ((Location.ancestors top).map Location.route)).1 =
        (second.ensureDirectory ((Location.ancestors top).map Location.route)).1 ∧
      Alike root (first.ensureDirectory ((Location.ancestors top).map Location.route)).2
        (second.ensureDirectory ((Location.ancestors top).map Location.route)).2 := by
  induction top using List.reverseRecOn generalizing first second with
  | nil =>
      have looks := alike.isDirectory overlaps named free
      exact ensureDirectory_cons_congr alike .failed looks ⟨rfl, alike⟩ .failed looks
  | append_singleton directory name ih =>
      have above : ∀ other ∈ directory, IsName other := Location.named_above named
      have freeAbove := free.above (List.prefix_append directory [name])
      have ensured := ih alike (overlaps.above (List.prefix_append directory [name])) above freeAbove
      have grown := grows_of_ensureDirectory above freeAbove
      rw [Location.ancestors_concat, List.map_cons]
      exact ensureDirectory_cons_congr alike (alike.createDirectory overlaps named freeAbove)
        (alike.isDirectory overlaps named free) ensured
        (ensured.2.createDirectory overlaps named (grown.linkFree freeAbove))
        (ensured.2.isDirectory overlaps named (grown.linkFree free))

/-! ## What is done in a directory -/

/-- What is done in the directory, as long as it lies behind no link, comes to the same on related
disks and leaves them related. -/
structure Parallel (alike : Disk → Disk → Prop) (directory : Location) : Prop where
  linkFree : ∀ {first second : Disk}, alike first second → first.LinkFree directory →
    second.LinkFree directory
  ensures : ∀ {first second : Disk}, alike first second → first.LinkFree directory →
    (first.ensureDirectory ((Location.ancestors directory).map Location.route)).1 =
        (second.ensureDirectory ((Location.ancestors directory).map Location.route)).1 ∧
      alike (first.ensureDirectory ((Location.ancestors directory).map Location.route)).2
        (second.ensureDirectory ((Location.ancestors directory).map Location.route)).2
  creates : ∀ {first second : Disk} {name : String} (content : ByteArray), alike first second →
    IsName name → first.LinkFree directory →
    After alike (first.createFile (Location.route (directory ++ [name])) content)
      (second.createFile (Location.route (directory ++ [name])) content)
  removes : ∀ {first second : Disk} {name : String}, alike first second → IsName name →
    first.LinkFree directory →
    After alike (first.removeFile (Location.route (directory ++ [name])))
      (second.removeFile (Location.route (directory ++ [name])))
  renames : ∀ {first second : Disk} {name newName : String}, alike first second → IsName name →
    IsName newName → first.LinkFree directory →
    After alike
      (first.rename (Location.route (directory ++ [name])) (Location.route (directory ++ [newName])))
      (second.rename (Location.route (directory ++ [name]))
        (Location.route (directory ++ [newName])))
  inspects : ∀ {first second : Disk} {name : String}, alike first second → IsName name →
    first.LinkFree (directory ++ [name]) →
    first.inspect (Location.route (directory ++ [name])) =
      second.inspect (Location.route (directory ++ [name]))
  finds : ∀ {first second : Disk} {name : String}, alike first second → IsName name →
    first.LinkFree directory →
    (first.inspectLink (Location.route (directory ++ [name]))).isOk =
      (second.inspectLink (Location.route (directory ++ [name]))).isOk

/-- Disks that agree around the root are treated alike below it. -/
theorem parallel_alike (named : ∀ name ∈ directory, IsName name) (within : root <+: directory) :
    Parallel (Alike root) directory := by
  have overlaps : ∀ name, Location.Overlaps (directory ++ [name]) root :=
    fun name => .inr (within.trans (List.prefix_append _ _))
  exact {
    linkFree := fun alike free => alike.linkFree (.inr within) free
    ensures := fun alike free => alike.ensureDirectory (.inr within) named free
    creates := fun content alike isName free =>
      alike.createFile (overlaps _) (Location.named_concat named isName) free content
    removes := fun alike isName free => alike.removeFile (overlaps _) (Location.named_concat named isName) free
    renames := fun alike isName newIsName free =>
      alike.rename (overlaps _) (Location.named_concat named isName) free newIsName (overlaps _)
    inspects := fun alike isName free => alike.inspect (overlaps _) (Location.named_concat named isName) free
    finds := fun alike isName free => by
      rw [alike.inspectLink (overlaps _) (Location.named_concat named isName)]
      rwa [List.dropLast_concat] }

end Disk

end SourceBaseline
