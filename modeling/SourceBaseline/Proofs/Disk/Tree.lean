import Mathlib.Data.List.Induction
import SourceBaseline.Disk

/-!
# Trees by what stands in them

A tree is known by what stands at every location: two trees in name order that agree everywhere are
the same tree. The listing of a disk misses nothing that stands below a place.
-/

set_option autoImplicit false

namespace SourceBaseline

namespace Tree

theorem Ordered.sorted {tree : Tree} (ordered : Ordered tree) :
    tree.Pairwise (fun left right => left.1 < right.1) := by
  obtain ⟨sorted, _⟩ := ordered
  exact sorted

theorem child?_of_mem {tree : Tree} {name : String} {node : Node} (ordered : Ordered tree)
    (member : (name, node) ∈ tree) : tree.child? name = some node := by
  have sorted := ordered.sorted
  clear ordered
  induction tree with
  | nil => cases member
  | cons head rest ih =>
      obtain ⟨first, later⟩ := List.pairwise_cons.1 sorted
      rcases List.mem_cons.1 member with same | behind
      · subst same
        simp [child?]
      · have different : head.1 ≠ name := by
          intro same
          have smaller : head.1 < name := first _ behind
          rw [same] at smaller
          exact String.lt_irrefl _ smaller
        have found := ih behind later
        rw [child?] at found ⊢
        rw [List.find?_cons_of_neg (by simpa using different)]
        exact found

theorem eq_of_child? {left right : Tree} (leftOrdered : Ordered left) (rightOrdered : Ordered right)
    (same : ∀ name, left.child? name = right.child? name) : left = right := by
  have unique : ∀ {tree : Tree}, Ordered tree → List.Nodup tree := by
    intro tree ordered
    refine ordered.sorted.imp ?_
    intro first second smaller equal
    rw [equal] at smaller
    exact String.lt_irrefl _ smaller
  have permutation : left.Perm right := by
    apply (List.perm_ext_iff_of_nodup (unique leftOrdered) (unique rightOrdered)).2
    intro entry
    constructor
    · intro member
      exact mem_of_child? ((same entry.1).symm.trans (child?_of_mem leftOrdered member))
    · intro member
      exact mem_of_child? ((same entry.1).trans (child?_of_mem rightOrdered member))
  apply permutation.eq_of_pairwise ?_ leftOrdered.sorted rightOrdered.sorted
  intro first second _ _ smaller greater
  exact absurd (String.lt_trans smaller greater) (String.lt_irrefl _)

theorem eq_of_standing? {left right : Tree} (leftOrdered : Ordered left)
    (rightOrdered : Ordered right) (same : ∀ location, left.standing? location = right.standing? location) :
    left = right := by
  -- On the directories: what stands under a name of one says what stands below it.
  induction leftOrdered generalizing right with
  | @intro left sorted below ih =>
      apply eq_of_child? (.intro sorted below) rightOrdered
      intro name
      have here := same [name]
      rw [standing?_cons, standing?_cons] at here
      cases found : left.child? name with
      | none =>
          cases other : right.child? name with
          | none => rfl
          | some node =>
              rw [found, other] at here
              cases node <;> cases here
      | some node =>
          cases other : right.child? name with
          | none =>
              rw [found, other] at here
              cases node <;> cases here
          | some otherNode =>
              rw [found, other] at here
              cases node with
              | file content age => cases otherNode <;> cases here; rfl
              | link target => cases otherNode <;> cases here; rfl
              | directory inner =>
                  cases otherNode with
                  | file content age => cases here
                  | link target => cases here
                  | directory otherInner =>
                      have otherOrdered : Ordered otherInner := by
                        obtain ⟨_, deeper⟩ := rightOrdered
                        exact deeper name otherInner (mem_of_child? other)
                      have deeper : ∀ rest, standing? inner rest = standing? otherInner rest := by
                        intro rest
                        have there := same (name :: rest)
                        rw [standing?_cons, standing?_cons, found, other] at there
                        exact there
                      rw [ih name inner (mem_of_child? found) otherOrdered deeper]

theorem mem_listing_of_mem {tree : Tree} {name : String} {node : Node} (member : (name, node) ∈ tree) :
    ([name], node.entry) ∈ listing tree ∧
      ∀ found ∈ node.listing, (name :: found.1, found.2) ∈ listing tree := by
  induction tree with
  | nil => cases member
  | cons head rest ih =>
      obtain ⟨first, top⟩ := head
      rw [listing]
      rcases List.mem_cons.1 member with same | behind
      · cases same
        refine ⟨.head _, ?_⟩
        intro found inside
        apply List.mem_cons_of_mem
        apply List.mem_append_left
        exact List.mem_map_of_mem inside
      · obtain ⟨here, below⟩ := ih behind
        refine ⟨List.mem_cons_of_mem _ (List.mem_append_right _ here), ?_⟩
        intro found inside
        exact List.mem_cons_of_mem _ (List.mem_append_right _ (below found inside))

theorem mem_listing_of_standing? {tree : Tree} {location : Location} {entry : Entry}
    (stands : tree.standing? location = some entry) (inner : location ≠ []) :
    (location, entry) ∈ listing tree := by
  induction location generalizing tree with
  | nil => exact absurd rfl inner
  | cons name rest ih =>
      rw [standing?_cons] at stands
      cases found : tree.child? name with
      | none =>
          rw [found] at stands
          cases stands
      | some node =>
          rw [found] at stands
          obtain ⟨here, below⟩ := mem_listing_of_mem (mem_of_child? found)
          by_cases last : rest = []
          · subst last
            cases node <;> cases stands <;> exact here
          · cases node with
            | file content age => simp [below?, last] at stands
            | link target => simp [below?, last] at stands
            | directory deeper => exact below _ (ih stands last)

theorem Ordered.find? {tree inner : Tree} {top : Location} (ordered : Ordered tree)
    (found : tree.find? top = some (.directory inner)) : Ordered inner := by
  induction top generalizing tree with
  | nil =>
      cases found
      exact ordered
  | cons name rest ih =>
      rw [Tree.find?] at found
      split at found
      next deeper child =>
        obtain ⟨_, below⟩ := ordered
        exact ih (below name deeper (mem_of_child? child)) found
      next node other child =>
        split at found
        · cases found
          exact absurd rfl (other inner)
        · cases found
      next => cases found

end Tree

namespace Disk

theorem mem_below_of_find? {disk : Disk} {location : Location} {entry : Entry}
    (stands : disk.find? location = some entry) (inner : location ≠ []) :
    (location, entry) ∈ disk.below [] :=
  Tree.mem_listing_of_standing? stands inner

theorem below_congr {first second : Disk} {top : Location}
    (same : ∀ location, top <+: location → first.find? location = second.find? location) :
    first.below top = second.below top := by
  have here := same top List.prefix_rfl
  unfold find? Tree.standing? at here
  unfold below
  cases found : first.tree.find? top with
  | none =>
      rw [found] at here
      rw [Option.map_eq_none_iff.1 here.symm]
  | some node =>
      cases other : second.tree.find? top with
      | none =>
          rw [found, other] at here
          cases here
      | some otherNode =>
          rw [found, other] at here
          cases node with
          | file content age => cases otherNode <;> cases here; rfl
          | link target => cases otherNode <;> cases here; rfl
          | directory inner =>
              cases otherNode with
              | file content age => cases here
              | link target => cases here
              | directory otherInner =>
                  have equal : inner = otherInner := by
                    apply Tree.eq_of_standing? (first.ordered.find? found) (second.ordered.find? other)
                    intro rest
                    have below := same (top ++ rest) (List.prefix_append _ _)
                    unfold find? Tree.standing? at below
                    rw [Tree.find?_append found, Tree.find?_append other] at below
                    exact below
                  rw [equal]

end Disk

end SourceBaseline
