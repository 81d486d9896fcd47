import SourceBaseline.Proofs.Disk.Tree

/-!
# Listings

The listing of a directory holds what stands below it and nothing else. It names every entry once,
in the order of the names on the way to it: a directory, then all that it holds, then what comes
after it.
-/

set_option autoImplicit false

namespace SourceBaseline

/-- The order of a listing. -/
def ListedBefore (first second : List String × Entry) : Prop :=
  first.1 < second.1

namespace Tree

theorem exists_of_mem_listing {tree : Tree} {found : List String × Entry}
    (member : found ∈ listing tree) :
    ∃ name node, (name, node) ∈ tree ∧
      (found = ([name], node.entry) ∨
        ∃ deeper ∈ node.listing, found = (name :: deeper.1, deeper.2)) := by
  induction tree with
  | nil => cases member
  | cons head rest ih =>
      obtain ⟨name, node⟩ := head
      rw [listing] at member
      rcases List.mem_cons.1 member with here | member
      · exact ⟨name, node, .head _, .inl here⟩
      rcases List.mem_append.1 member with below | behind
      · obtain ⟨deeper, inside, same⟩ := List.mem_map.1 below
        exact ⟨name, node, .head _, .inr ⟨deeper, inside, same.symm⟩⟩
      · obtain ⟨other, otherNode, inside, found⟩ := ih behind
        exact ⟨other, otherNode, .tail _ inside, found⟩

theorem ne_nil_of_mem_listing {tree : Tree} {found : List String × Entry}
    (member : found ∈ listing tree) : found.1 ≠ [] := by
  obtain ⟨name, node, _, same | ⟨deeper, _, same⟩⟩ := exists_of_mem_listing member
  · simp [same]
  · simp [same]

theorem standing?_of_mem_listing {tree : Tree} (ordered : Ordered tree)
    {found : List String × Entry} (member : found ∈ listing tree) :
    tree.standing? found.1 = some found.2 := by
  induction ordered generalizing found with
  | @intro tree sorted below ih =>
      obtain ⟨name, node, inside, same | ⟨deeper, beneath, same⟩⟩ := exists_of_mem_listing member
      · rw [same, standing?_cons, child?_of_mem (.intro sorted below) inside]
        cases node <;> rfl
      · rw [same, standing?_cons, child?_of_mem (.intro sorted below) inside]
        cases node with
        | directory inner => exact ih name inner inside beneath
        | file content age => cases beneath
        | link target => cases beneath

theorem mem_listing_iff {tree : Tree} (ordered : Ordered tree) {names : List String} {entry : Entry} :
    (names, entry) ∈ listing tree ↔ names ≠ [] ∧ tree.standing? names = some entry :=
  ⟨fun member => ⟨ne_nil_of_mem_listing member, standing?_of_mem_listing ordered member⟩,
    fun ⟨inner, stands⟩ => mem_listing_of_standing? stands inner⟩

theorem pairwise_listing_of_sorted {tree : Tree}
    (sorted : tree.Pairwise fun left right => left.1 < right.1)
    (below : ∀ name inner, (name, Node.directory inner) ∈ tree →
      (listing inner).Pairwise ListedBefore) :
    (listing tree).Pairwise ListedBefore := by
  induction tree with
  | nil => exact .nil
  | cons head rest ih =>
      obtain ⟨name, node⟩ := head
      obtain ⟨smaller, later⟩ := List.pairwise_cons.1 sorted
      have behind : ∀ more found, found ∈ listing rest → name :: more < found.1 := by
        intro more found member
        obtain ⟨other, otherNode, inside, same | ⟨deeper, _, same⟩⟩ := exists_of_mem_listing member
        · exact same ▸ List.cons_lt_cons_iff.2 (.inl (smaller _ inside))
        · exact same ▸ List.cons_lt_cons_iff.2 (.inl (smaller _ inside))
      have orderedRest := ih later fun other inner member => below other inner (.tail _ member)
      -- A node stands before all that is below it, and that before the later nodes.
      rw [listing, List.pairwise_cons, List.pairwise_append]
      cases node with
      | file content age => exact ⟨fun found => behind [] found, .nil, orderedRest, by simp [Node.listing]⟩
      | link target => exact ⟨fun found => behind [] found, .nil, orderedRest, by simp [Node.listing]⟩
      | directory inner =>
          refine ⟨?_, ?_, orderedRest, ?_⟩
          · intro found member
            rcases List.mem_append.1 member with beneath | after
            · obtain ⟨deeper, inside, rfl⟩ := List.mem_map.1 beneath
              obtain ⟨first, more, nonempty⟩ :=
                List.exists_cons_of_ne_nil (ne_nil_of_mem_listing inside)
              refine List.cons_lt_cons_iff.2 (.inr ⟨rfl, ?_⟩)
              rw [nonempty]
              exact List.nil_lt_cons first more
            · exact behind [] found after
          · rw [List.pairwise_map]
            refine (below name inner (.head _)).imp ?_
            intro first second before
            exact List.cons_lt_cons_iff.2 (.inr ⟨rfl, before⟩)
          · intro first member second after
            obtain ⟨deeper, _, rfl⟩ := List.mem_map.1 member
            exact behind deeper.1 second after

theorem Ordered.pairwise_listing {tree : Tree} (ordered : Ordered tree) :
    (listing tree).Pairwise ListedBefore := by
  induction ordered with
  | intro sorted _ ih => exact pairwise_listing_of_sorted sorted ih

end Tree

namespace Disk

variable {disk : Disk} {top : Location}

theorem mem_below_iff {names : List String} {entry : Entry} :
    (names, entry) ∈ disk.below top ↔ names ≠ [] ∧ disk.find? (top ++ names) = some entry := by
  unfold below find?
  cases found : disk.tree.find? top with
  | none =>
      refine iff_of_false List.not_mem_nil ?_
      rintro ⟨inner, stands⟩
      rw [Tree.standing?_below_leaf (by simp [Tree.standing?, found]) inner] at stands
      cases stands
  | some node =>
      have leaf : node.entry ≠ .directory →
          ¬ (names ≠ [] ∧ disk.tree.standing? (top ++ names) = some entry) := by
        rintro leaf ⟨inner, stands⟩
        rw [Tree.standing?_below_leaf (by simpa [Tree.standing?, found] using leaf) inner] at stands
        cases stands
      cases node with
      | file content age => exact iff_of_false List.not_mem_nil (leaf (by simp [Node.entry]))
      | link target => exact iff_of_false List.not_mem_nil (leaf (by simp [Node.entry]))
      | directory inner =>
          rw [Tree.standing?, Tree.find?_append found]
          exact Tree.mem_listing_iff (disk.ordered.find? found)

theorem pairwise_below : (disk.below top).Pairwise ListedBefore := by
  unfold below
  cases found : disk.tree.find? top with
  | none => exact .nil
  | some node =>
      cases node with
      | file content age => exact .nil
      | link target => exact .nil
      | directory inner => exact (disk.ordered.find? found).pairwise_listing

/-- Everything on the way to what is listed is a directory that is listed as well. -/
theorem mem_below_of_above {names shorter : List String} {entry : Entry}
    (member : (names, entry) ∈ disk.below top) (within : shorter <+: names) (inner : shorter ≠ [])
    (proper : shorter ≠ names) : (shorter, .directory) ∈ disk.below top := by
  obtain ⟨_, stands⟩ := mem_below_iff.1 member
  obtain ⟨rest, rfl⟩ := within
  refine mem_below_iff.2 ⟨inner, ?_⟩
  apply Classical.byContradiction
  intro leaf
  rw [← List.append_assoc, find?_below_leaf leaf (by simpa using proper)] at stands
  cases stands

/-- Every name on the disk can stand in a directory. -/
def Named (disk : Disk) : Prop :=
  ∀ found ∈ disk.below [], ∀ name ∈ found.1, IsName name

instance (disk : Disk) : Decidable disk.Named :=
  inferInstanceAs (Decidable (∀ found ∈ disk.below [], ∀ name ∈ found.1, IsName name))

theorem Named.of_stands {location : Location} {entry : Entry} (named : disk.Named)
    (stands : disk.find? location = some entry) : ∀ name ∈ location, IsName name := by
  by_cases inner : location = []
  · simp [inner]
  · exact named _ (mem_below_of_find? stands inner)

end Disk

end SourceBaseline
