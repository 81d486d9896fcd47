import SourceBaseline.Path
import SourceBaseline.SortedMap

/-!
# Trees of files

A directory holds files, directories and links under their names, in name order. `Tree.find?` looks
a location up from a directory on, and `Tree.set` changes what stands at a location.
`Tree.standing?_set` says what that does to every other location. A `Cursor` is a directory that was
reached name by name, so that the next name and the directory above are at hand.
-/

set_option autoImplicit false

namespace SourceBaseline

/-- What stands at a location. The age of a file is in seconds. -/
inductive Entry where
  | file (content : ByteArray) (age : Nat)
  | directory
  | link (target : Path)
  deriving Inhabited

instance : DecidableEq Entry
  | .file content age, .file other otherAge =>
      match ByteArray.instDecidableEq content other, Nat.decEq age otherAge with
      | isTrue same, isTrue sameAge => isTrue (by rw [same, sameAge])
      | isFalse different, _ => isFalse fun equal => different (Entry.file.inj equal).1
      | _, isFalse different => isFalse fun equal => different (Entry.file.inj equal).2
  | .directory, .directory => isTrue rfl
  | .link target, .link other =>
      if same : target = other then isTrue (by rw [same])
      else isFalse fun equal => same (Entry.link.inj equal)
  | .file _ _, .directory => isFalse nofun
  | .file _ _, .link _ => isFalse nofun
  | .directory, .file _ _ => isFalse nofun
  | .directory, .link _ => isFalse nofun
  | .link _, .file _ _ => isFalse nofun
  | .link _, .directory => isFalse nofun

inductive Node where
  | file (content : ByteArray) (age : Nat)
  | directory (tree : List (String × Node))
  | link (target : Path)
  deriving Inhabited

abbrev Tree := List (String × Node)

namespace Node

def entry : Node → Entry
  | file content age => .file content age
  | directory _ => .directory
  | link target => .link target

def ofEntry : Entry → Node
  | .file content age => file content age
  | .directory => directory []
  | .link target => link target

@[simp] theorem entry_ofEntry (entry : Entry) : (ofEntry entry).entry = entry := by
  cases entry <;> rfl

theorem entry_eq_directory_iff {node : Node} :
    node.entry = .directory ↔ ∃ tree, node = directory tree := by
  cases node <;> simp [entry]

end Node

namespace Tree

def child? (tree : Tree) (name : String) : Option Node :=
  (tree.find? fun entry => entry.1 = name).map Prod.snd

/-- Put a node under a name, or take away what stands there. -/
def replace (tree : Tree) (name : String) : Option Node → Tree
  | some node => SortedMap.insertEntry name node tree
  | none => tree.filter fun entry => entry.1 ≠ name

def find? (tree : Tree) : Location → Option Node
  | [] => some (.directory tree)
  | name :: rest =>
      match child? tree name with
      | some (.directory inner) => find? inner rest
      | some node => if rest = [] then some node else none
      | none => none

def standing? (tree : Tree) (location : Location) : Option Entry :=
  (find? tree location).map Node.entry

/-- Put a node under a name in the directory at a location, or take away what stands there. If
there is no such directory, nothing changes. -/
def set (name : String) (value : Option Node) : Location → Tree → Tree
  | [], tree => replace tree name value
  | step :: rest, tree =>
      match child? tree step with
      | some (.directory inner) => replace tree step (some (.directory (set name value rest inner)))
      | _ => tree

/-- Names stand in strictly increasing order in the directory and in every directory below it. -/
inductive Ordered : Tree → Prop where
  | intro {tree : Tree} :
      tree.Pairwise (fun left right => left.1 < right.1) →
      (∀ (name : String) (inner : Tree), (name, Node.directory inner) ∈ tree → Ordered inner) →
      Ordered tree

theorem Ordered.nil : Ordered [] := .intro .nil nofun

theorem child?_replace (tree : Tree) (name other : String) (value : Option Node) :
    (replace tree name value).child? other = if name = other then value else tree.child? other := by
  cases value with
  | some node => exact SortedMap.find?_insertEntry tree name other node
  | none =>
      simp only [replace, child?, List.find?_filter]
      split
      next same => subst same; simp
      next different =>
        congr 2
        funext entry
        by_cases found : entry.1 = other <;> simp [found, Ne.symm different]

theorem mem_of_child? {tree : Tree} {name : String} {node : Node}
    (found : tree.child? name = some node) : (name, node) ∈ tree := by
  obtain ⟨entry, located, same⟩ := Option.map_eq_some_iff.1 found
  have here := List.mem_of_find?_eq_some located
  have key : entry.1 = name := by simpa using List.find?_some located
  obtain ⟨other, value⟩ := entry
  cases key; cases same
  exact here

theorem Ordered.replace {tree : Tree} {name : String} {value : Option Node} (ordered : Ordered tree)
    (inside : ∀ inner, value = some (.directory inner) → Ordered inner) :
    Ordered (tree.replace name value) := by
  obtain ⟨sorted, below⟩ := ordered
  cases value with
  | none =>
      exact .intro (sorted.filter _) fun other inner member =>
        below other inner (List.mem_filter.1 member).1
  | some node =>
      refine .intro (SortedMap.sorted_insertEntry sorted) fun other inner member => ?_
      rcases SortedMap.mem_insertEntry member with same | member
      · cases same
        exact inside inner rfl
      · exact below other inner member

theorem Ordered.set {name : String} {value : Option Node} {parent : Location} {tree : Tree}
    (ordered : Ordered tree) (inside : ∀ inner, value = some (.directory inner) → Ordered inner) :
    Ordered (tree.set name value parent) := by
  induction parent generalizing tree with
  | nil => exact ordered.replace inside
  | cons step rest ih =>
      rw [Tree.set]
      split
      next inner found =>
        have innerOrdered : Ordered inner := by
          obtain ⟨_, below⟩ := ordered
          exact below step inner (mem_of_child? found)
        exact ordered.replace fun other same => by
          cases same
          exact ih innerOrdered
      next => exact ordered

def below? (value : Option Node) (rest : Location) : Option Entry :=
  match value with
  | some (.directory inner) => standing? inner rest
  | some node => if rest = [] then some node.entry else none
  | none => none

theorem standing?_nil (tree : Tree) : tree.standing? [] = some .directory := rfl

theorem standing?_cons (tree : Tree) (name : String) (rest : Location) :
    tree.standing? (name :: rest) = below? (tree.child? name) rest := by
  rw [standing?, find?]
  cases tree.child? name with
  | none => rfl
  | some node =>
      cases node with
      | directory inner => rfl
      | file content age => by_cases last : rest = [] <;> simp [below?, last]
      | link target => by_cases last : rest = [] <;> simp [below?, last]

theorem exists_of_below? {value : Option Node} {rest : Location}
    (ready : below? value rest = some .directory) :
    ∃ inner, value = some (.directory inner) ∧ standing? inner rest = some .directory := by
  cases value with
  | none => cases ready
  | some node =>
      cases node with
      | directory inner => exact ⟨inner, rfl, ready⟩
      | file content age => by_cases last : rest = [] <;> simp [below?, last, Node.entry] at ready
      | link target => by_cases last : rest = [] <;> simp [below?, last, Node.entry] at ready

/-- A change under a name of a directory concerns that name and what stands below it alone. -/
theorem standing?_set {name : String} {value : Option Node} {parent : Location} {tree : Tree}
    (ready : tree.standing? parent = some .directory) (location : Location) :
    (tree.set name value parent).standing? location =
      match Location.below? (parent ++ [name]) location with
      | some rest => below? value rest
      | none => tree.standing? location := by
  induction parent generalizing tree location with
  | nil =>
      cases location with
      | nil => rfl
      | cons first rest =>
          simp only [set, standing?_cons, child?_replace, List.nil_append, Location.below?_cons]
          split <;> rfl
  | cons step more ih =>
      rw [standing?_cons] at ready
      cases location with
      | nil => rfl
      | cons first rest =>
          obtain ⟨inner, found, ready⟩ := exists_of_below? ready
          rw [List.cons_append, Location.below?_cons, set, found]
          simp only [standing?_cons, child?_replace]
          split
          next same =>
            subst same
            rw [found]
            exact ih ready rest
          next => rfl

theorem standing?_set_of_missing {name : String} {value : Option Node} {parent : Location}
    {tree : Tree} (missing : tree.standing? parent ≠ some .directory) (location : Location) :
    (tree.set name value parent).standing? location = tree.standing? location := by
  induction parent generalizing tree location with
  | nil => exact absurd rfl missing
  | cons step more ih =>
      rw [standing?_cons] at missing
      rw [set]
      split
      next inner found =>
        rw [found] at missing
        cases location with
        | nil => rfl
        | cons first rest =>
            simp only [standing?_cons, child?_replace]
            split
            next same =>
              subst same
              rw [found]
              exact ih missing rest
            next => rfl
      next => rfl

theorem find?_append {tree inner : Tree} {top : Location}
    (found : tree.find? top = some (.directory inner)) (rest : Location) :
    tree.find? (top ++ rest) = inner.find? rest := by
  induction top generalizing tree with
  | nil =>
      cases found
      rfl
  | cons name more ih =>
      rw [find?] at found
      rw [List.cons_append, find?]
      split at found
      next next reached => exact ih found
      next node other reached =>
        split at found
        · cases found
          exact absurd rfl (other inner)
        · cases found
      next => cases found

theorem standing?_below_leaf {tree : Tree} {top rest : Location}
    (leaf : tree.standing? top ≠ some .directory) (deeper : rest ≠ []) :
    tree.standing? (top ++ rest) = none := by
  induction top generalizing tree with
  | nil => exact absurd rfl leaf
  | cons name more ih =>
      rw [standing?_cons] at leaf
      rw [List.cons_append, standing?_cons]
      cases found : tree.child? name with
      | none => rfl
      | some node =>
          rw [found] at leaf
          cases node with
          | directory inner => exact ih leaf
          | file content age => simp [below?, deeper]
          | link target => simp [below?, deeper]

end Tree

mutual

/-- What stands below a node, with the names that lead there, each directory before what it
holds. -/
def Node.listing : Node → List (List String × Entry)
  | .directory tree => Tree.listing tree
  | .file _ _ => []
  | .link _ => []

def Tree.listing : List (String × Node) → List (List String × Entry)
  | [] => []
  | (name, node) :: rest =>
      ([name], node.entry) ::
        ((Node.listing node).map (fun found => (name :: found.1, found.2)) ++ Tree.listing rest)

end

/-- A directory that was reached name by name: what stands in it, and the names on the way with the
directories that they were found in, the last one first. -/
structure Cursor where
  tree : Tree
  trail : List (String × Tree)

namespace Cursor

def location (cursor : Cursor) : Location :=
  (cursor.trail.map Prod.fst).reverse

/-- The directory above; the top is above itself. -/
def up (cursor : Cursor) : Cursor :=
  match cursor.trail with
  | [] => cursor
  | (_, outer) :: rest => ⟨outer, rest⟩

def down (cursor : Cursor) (name : String) (inner : Tree) : Cursor :=
  ⟨inner, (name, cursor.tree) :: cursor.trail⟩

def follow? (cursor : Cursor) : Location → Option Cursor
  | [] => some cursor
  | name :: rest =>
      match cursor.tree.child? name with
      | some (.directory inner) => follow? (cursor.down name inner) rest
      | _ => none

inductive Reached (top : Tree) : Cursor → Prop where
  | top : Reached top ⟨top, []⟩
  | down {cursor : Cursor} {name : String} {inner : Tree} :
      Reached top cursor → cursor.tree.child? name = some (.directory inner) →
      Reached top (cursor.down name inner)

theorem location_down (cursor : Cursor) (name : String) (inner : Tree) :
    (cursor.down name inner).location = cursor.location ++ [name] := by
  simp [down, location]

theorem location_up (cursor : Cursor) : cursor.up.location = cursor.location.dropLast := by
  obtain ⟨tree, trail⟩ := cursor
  cases trail <;> simp [up, location]

theorem Reached.up {top : Tree} {cursor : Cursor} (reached : Reached top cursor) :
    Reached top cursor.up := by
  cases reached with
  | top => exact .top
  | down reached _ => exact reached

theorem Reached.find? {top : Tree} {cursor : Cursor} (reached : Reached top cursor) :
    top.find? cursor.location = some (.directory cursor.tree) := by
  induction reached with
  | top => rfl
  | @down cursor name inner _ found ih =>
      rw [location_down, Tree.find?_append ih, Tree.find?, found]
      rfl

theorem Reached.standing? {top : Tree} {cursor : Cursor} (reached : Reached top cursor)
    (name : String) :
    top.standing? (cursor.location ++ [name]) = (cursor.tree.child? name).map Node.entry := by
  have below := Tree.find?_append reached.find? [name]
  rw [Tree.standing?, below, ← Tree.standing?, Tree.standing?_cons]
  cases cursor.tree.child? name with
  | none => rfl
  | some node => cases node <;> rfl

theorem Reached.follow? {top : Tree} {cursor found : Cursor} {location : Location}
    (reached : Reached top cursor) (followed : cursor.follow? location = some found) :
    Reached top found ∧ found.location = cursor.location ++ location := by
  induction location generalizing cursor with
  | nil =>
      cases followed
      exact ⟨reached, by simp⟩
  | cons name rest ih =>
      rw [Cursor.follow?] at followed
      split at followed
      next inner inside =>
        obtain ⟨last, same⟩ := ih (reached.down inside) followed
        exact ⟨last, by rw [same, location_down]; simp⟩
      next => cases followed

end Cursor

end SourceBaseline
