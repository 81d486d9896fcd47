import SourceBaseline.Disk

/-!
# Physical resolution

`Disk.Leads` says where names lead on a disk when every part on the way exists, links are expanded
where they are met and `..` is applied to the place reached so far. It counts no links and no
bytes; a walk that stays within the limits of the disk finds nothing else (`leads_of_walkTo`).
-/

set_option autoImplicit false

namespace SourceBaseline.Disk

/-- Following some names from a directory ends at a place. A link in last place is followed only if
`followLast` says so. -/
inductive Leads (disk : Disk) (followLast : Bool) : Location → List String → Location → Prop where
  | nil {here} : Leads disk followLast here [] here
  | stay {here rest place} :
      Leads disk followLast here rest place → Leads disk followLast here ("." :: rest) place
  | up {here rest place} :
      Leads disk followLast here.dropLast rest place → Leads disk followLast here (".." :: rest) place
  | enter {here name rest place} :
      name ≠ "." → name ≠ ".." → disk.find? (here ++ [name]) = some .directory →
      Leads disk followLast (here ++ [name]) rest place →
      Leads disk followLast here (name :: rest) place
  | file {here name content age} :
      name ≠ "." → name ≠ ".." → disk.find? (here ++ [name]) = some (.file content age) →
      Leads disk followLast here [name] (here ++ [name])
  | last {here name target} :
      name ≠ "." → name ≠ ".." → disk.find? (here ++ [name]) = some (.link target) →
      followLast = false → Leads disk followLast here [name] (here ++ [name])
  | follow {here name rest target place} :
      name ≠ "." → name ≠ ".." → disk.find? (here ++ [name]) = some (.link target) →
      Leads disk followLast (if target.isAbsolute then [] else here) (target.walkNames ++ rest) place →
      Leads disk followLast here (name :: rest) place

/-! ## A walk up to its first link -/

/-- A name that is looked up in a directory. -/
structure IsLookedUp (name : String) : Prop where
  notHere : name ≠ "."
  notUp : name ≠ ".."
  short : ¬ nameLimit < name.utf8ByteSize

/-- Names are followed to an answer, by way of `onLink` if a link is followed. -/
inductive Proceeds {α : Type} (disk : Disk) (followLast : Bool) (onEnd : Location → α)
    (onLink : Cursor → List String → Except Fault α) (answer : α) : Cursor → List String → Prop where
  | ends {here} :
      onEnd here.location = answer → Proceeds disk followLast onEnd onLink answer here []
  | stay {here rest} :
      Proceeds disk followLast onEnd onLink answer here rest →
      Proceeds disk followLast onEnd onLink answer here ("." :: rest)
  | up {here rest} :
      Proceeds disk followLast onEnd onLink answer here.up rest →
      Proceeds disk followLast onEnd onLink answer here (".." :: rest)
  | enter {here name rest inner} :
      IsLookedUp name → here.tree.child? name = some (.directory inner) →
      Proceeds disk followLast onEnd onLink answer (here.down name inner) rest →
      Proceeds disk followLast onEnd onLink answer here (name :: rest)
  | file {here name content age} :
      IsLookedUp name → here.tree.child? name = some (.file content age) →
      onEnd (here.location ++ [name]) = answer →
      Proceeds disk followLast onEnd onLink answer here [name]
  | last {here name target} :
      IsLookedUp name → here.tree.child? name = some (.link target) → followLast = false →
      onEnd (here.location ++ [name]) = answer →
      Proceeds disk followLast onEnd onLink answer here [name]
  | follow {here name rest target} :
      IsLookedUp name → here.tree.child? name = some (.link target) →
      ¬ (rest = [] ∧ !followLast) →
      onLink (if target.isAbsolute then disk.start else here) (target.walkNames ++ rest) = .ok answer →
      Proceeds disk followLast onEnd onLink answer here (name :: rest)

variable {disk : Disk} {followLast : Bool}

section Proceeding

variable {α : Type} {onEnd : Location → α} {onLink : Cursor → List String → Except Fault α}
  {here : Cursor} {name : String} {rest : List String} {answer : α}

theorem proceed_here : disk.proceed followLast onEnd onLink here ("." :: rest) =
    disk.proceed followLast onEnd onLink here rest := by
  rw [proceed, if_pos rfl]

theorem proceed_up : disk.proceed followLast onEnd onLink here (".." :: rest) =
    disk.proceed followLast onEnd onLink here.up rest := by
  rw [proceed, if_neg (by decide), if_pos rfl]

theorem proceed_of_directory {inner : Tree} (looked : IsLookedUp name)
    (inside : here.tree.child? name = some (.directory inner)) :
    disk.proceed followLast onEnd onLink here (name :: rest) =
      disk.proceed followLast onEnd onLink (here.down name inner) rest := by
  rw [proceed, if_neg looked.notHere, if_neg looked.notUp, if_neg looked.short, inside]

theorem proceed_of_link {target : Path} (looked : IsLookedUp name)
    (inside : here.tree.child? name = some (.link target)) (followed : ¬ (rest = [] ∧ !followLast)) :
    disk.proceed followLast onEnd onLink here (name :: rest) =
      onLink (if target.isAbsolute then disk.start else here) (target.walkNames ++ rest) := by
  rw [proceed, if_neg looked.notHere, if_neg looked.notUp, if_neg looked.short, inside]
  exact if_neg followed

theorem proceeds_of_proceed {names : List String}
    (found : disk.proceed followLast onEnd onLink here names = .ok answer) :
    disk.Proceeds followLast onEnd onLink answer here names := by
  induction names generalizing here with
  | nil => exact .ends (Except.ok.inj found)
  | cons name rest ih =>
      by_cases isHere : name = "."
      · subst isHere
        exact .stay (ih (proceed_here.symm.trans found))
      by_cases isUp : name = ".."
      · subst isUp
        exact .up (ih (proceed_up.symm.trans found))
      by_cases long : nameLimit < name.utf8ByteSize
      · rw [proceed, if_neg isHere, if_neg isUp, if_pos long] at found
        cases found
      have looked : IsLookedUp name := ⟨isHere, isUp, long⟩
      rw [proceed, if_neg isHere, if_neg isUp, if_neg long] at found
      split at found
      next => cases found
      next inside => exact .enter looked inside (ih found)
      next inside =>
        split at found
        next last =>
          subst last
          exact .file looked inside (Except.ok.inj found)
        next => cases found
      next inside =>
        split at found
        next last =>
          obtain ⟨rfl, unfollowed⟩ := last
          exact .last looked inside (by simpa using unfollowed) (Except.ok.inj found)
        next followed => exact .follow looked inside followed found

theorem find?_of_child? {node : Node} (reached : Cursor.Reached disk.tree here)
    (inside : here.tree.child? name = some node) :
    disk.find? (here.location ++ [name]) = some node.entry := by
  rw [find?, reached.standing?, inside, Option.map_some]

/-- A link starts again from the top or where it stands. -/
theorem reached_start (reached : Cursor.Reached disk.tree here) (target : Path) :
    Cursor.Reached disk.tree (if target.isAbsolute then disk.start else here) := by
  split
  · exact .top
  · exact reached

end Proceeding

/-! ## Where a walk leads -/

theorem leads_of_proceed {links left : Nat} {here : Cursor} {names : List String} {place : Location}
    {onLink : Cursor → List String → Except Fault (Location × Nat)}
    (hop : ∀ {here : Cursor} {names : List String},
      Cursor.Reached disk.tree here → onLink here names = .ok (place, left) →
      disk.Leads followLast here.location names place)
    (reached : Cursor.Reached disk.tree here)
    (found : disk.proceed followLast (fun place => (place, links)) onLink here names =
      .ok (place, left)) :
    disk.Leads followLast here.location names place := by
  have proceeds := proceeds_of_proceed found
  clear found
  induction proceeds with
  | ends last =>
      cases last
      exact .nil
  | stay _ ih => exact .stay (ih reached)
  | up _ ih =>
      have above := ih reached.up
      rw [Cursor.location_up] at above
      exact .up above
  | enter looked inside _ ih =>
      have entry := find?_of_child? reached inside
      have below := ih (reached.down inside)
      rw [Cursor.location_down] at below
      exact .enter looked.notHere looked.notUp entry below
  | file looked inside last =>
      cases last
      exact .file looked.notHere looked.notUp (find?_of_child? reached inside)
  | last looked inside unfollowed last =>
      cases last
      exact .last looked.notHere looked.notUp (find?_of_child? reached inside) unfollowed
  | @follow here name rest target looked inside _ answered =>
      have beyond := hop (reached_start reached target) answered
      rw [apply_ite Cursor.location] at beyond
      exact .follow looked.notHere looked.notUp (find?_of_child? reached inside) beyond

/-- What a walk within the limits of the disk finds is where the names lead. -/
theorem leads_of_walkTo {links left : Nat} {here : Cursor} {names : List String} {place : Location}
    (reached : Cursor.Reached disk.tree here)
    (found : disk.walkTo followLast links here names = .ok (place, left)) :
    disk.Leads followLast here.location names place := by
  induction links generalizing here names with
  | zero => exact leads_of_proceed (fun _ refused => by cases refused) reached found
  | succ links ih => exact leads_of_proceed ih reached found

theorem leads_of_canonical {path : Path} {place : Location} (found : disk.canonical path = .ok place) :
    disk.Leads true [] path.walkNames place := by
  obtain ⟨_, _, found⟩ := bind_eq_ok_iff.1 found
  split at found
  next => cases found
  next =>
    obtain ⟨⟨location, left⟩, walked, found⟩ := bind_eq_ok_iff.1 found
    obtain ⟨_, _, same⟩ := bind_eq_ok_iff.1 found
    cases same
    exact leads_of_walkTo .top walked

/-- Only names are ever reached: the texts of paths and links are split at every separator. -/
theorem Leads.isName {here place : Location} {names : List String}
    (leads : disk.Leads followLast here names place) (named : ∀ name ∈ here, IsName name)
    (whole : ∀ name ∈ names, name ≠ "" ∧ '/' ∉ name.toList) : ∀ name ∈ place, IsName name := by
  have extend : ∀ {here : Location} {name : String}, (∀ name ∈ here, IsName name) → name ≠ "." →
      name ≠ ".." → (name ≠ "" ∧ '/' ∉ name.toList) → ∀ other ∈ here ++ [name], IsName other := by
    intro here name named notHere notUp whole other member
    rcases List.mem_append.1 member with before | last
    · exact named other before
    · have same : other = name := by simpa using last
      exact same ▸ ⟨whole.1, notHere, notUp, whole.2⟩
  induction leads with
  | nil => exact named
  | stay _ ih => exact ih named fun name member => whole name (.tail _ member)
  | up _ ih =>
      exact ih (fun name member => named name (List.dropLast_subset _ member))
        fun name member => whole name (.tail _ member)
  | enter notHere notUp _ _ ih =>
      exact ih (extend named notHere notUp (whole _ (.head _)))
        fun name member => whole name (.tail _ member)
  | file notHere notUp _ => exact extend named notHere notUp (whole _ (.head _))
  | last notHere notUp _ _ => exact extend named notHere notUp (whole _ (.head _))
  | @follow here name rest target place notHere notUp _ _ ih =>
      refine ih ?_ ?_
      · split
        · exact nofun
        · exact named
      · intro other member
        rcases List.mem_append.1 member with ahead | later
        · exact Path.undivided_of_mem_walkNames ahead
        · exact whole other (.tail _ later)

theorem isName_of_canonical {path : Path} {place : Location} (found : disk.canonical path = .ok place) :
    ∀ name ∈ place, IsName name :=
  (leads_of_canonical found).isName nofun fun _ member => Path.undivided_of_mem_walkNames member

end SourceBaseline.Disk
