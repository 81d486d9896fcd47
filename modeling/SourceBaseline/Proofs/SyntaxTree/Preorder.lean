import Mathlib.Data.List.Basic
import SourceBaseline.Proofs.SyntaxTree.Places

/-!
# Walks in pre-order

A walk with a stack comes to every node that is reached over named children, each once and in pre-order.
What is kept of a walk stays in this order: the values that are found for its nodes, and the first node of
a kind.
-/

set_option autoImplicit false

namespace SourceBaseline

/-- The values stand for the places that have one, each place once and in pre-order. -/
def Lists {α : Type} (values : List α) (stands : Place → α → Prop) : Prop :=
  ∃ placed : List (Place × α), values = placed.map Prod.snd ∧
    placed.Pairwise (fun earlier later => earlier.1 < later.1) ∧
    ∀ place value, (place, value) ∈ placed ↔ stands place value

namespace Lists

variable {α β : Type} {values : List α} {stands : Place → α → Prop}

theorem congr {described : Place → α → Prop} (lists : Lists values described)
    (same : ∀ place value, described place value ↔ stands place value) : Lists values stands := by
  obtain ⟨placed, listed, ordered, exact⟩ := lists
  exact ⟨placed, listed, ordered, fun place value => (exact place value).trans (same place value)⟩

/-- Where no place has two values, a walk emits the values of all places. -/
theorem of_emits (emits : Emits values stands)
    (unique : ∀ place value other, stands place value → stands place other → value = other) :
    Lists values stands := by
  obtain ⟨placed, same, ordered, sound, complete⟩ := emits
  refine ⟨placed, same, ordered, fun place value => ⟨fun member => sound _ member, fun here => ?_⟩⟩
  obtain ⟨other, member⟩ := complete place value here
  exact unique place value other here (sound _ member) ▸ member

theorem filterMap (lists : Lists values stands) (found? : α → Option β) :
    Lists (values.filterMap found?) fun place value => ∃ item, stands place item ∧ found? item = some value := by
  obtain ⟨placed, rfl, ordered, exact⟩ := lists
  let mark := fun (entry : Place × α) => (found? entry.2).map fun value => (entry.1, value)
  have mark_iff : ∀ entry other, mark entry = some other ↔ entry.1 = other.1 ∧ found? entry.2 = some other.2 := by
    intro entry other
    simp only [mark, Option.map_eq_some_iff, Prod.ext_iff]
    constructor
    · intro ⟨value, found, same, sameToo⟩
      exact ⟨same, sameToo ▸ found⟩
    · intro ⟨same, found⟩
      exact ⟨other.2, found, same, rfl⟩
  refine ⟨placed.filterMap mark, ?_, ?_, fun place value => ?_⟩
  · rw [List.map_filterMap, List.filterMap_map]
    congr 1
    funext entry
    simp only [mark, Function.comp_apply, Option.map_map]
    cases found? entry.2 <;> rfl
  · refine List.pairwise_filterMap.2 (ordered.imp fun {left right} before here marked there markedToo => ?_)
    rw [← ((mark_iff left here).1 marked).1, ← ((mark_iff right there).1 markedToo).1]
    exact before
  · rw [List.mem_filterMap]
    constructor
    · intro ⟨entry, member, marked⟩
      obtain ⟨same, found⟩ := (mark_iff entry (place, value)).1 marked
      dsimp only at same
      subst same
      exact ⟨entry.2, (exact _ _).1 member, found⟩
    · intro ⟨item, here, found⟩
      exact ⟨(place, item), (exact _ _).2 here, (mark_iff _ _).2 ⟨rfl, found⟩⟩

theorem filter (lists : Lists values stands) (keep : α → Bool) :
    Lists (values.filter keep) fun place value => stands place value ∧ keep value = true := by
  rw [← List.filterMap_eq_filter]
  refine (lists.filterMap _).congr fun place value => ?_
  simp [Option.guard_eq_some_iff]

/-- In a list with increasing places, what is listed before an entry has a smaller place. -/
theorem mem_front_iff {placed front back : List (Place × α)} {entry other : Place × α}
    (ordered : placed.Pairwise fun earlier later => earlier.1 < later.1) (split : placed = front ++ entry :: back)
    (member : other ∈ placed) : other ∈ front ↔ other.1 < entry.1 := by
  subst split
  obtain ⟨_, behind, before⟩ := List.pairwise_append.1 ordered
  refine ⟨fun inFront => before other inFront entry (.head _), fun less => ?_⟩
  rcases List.mem_append.1 member with inFront | later
  · exact inFront
  · rcases List.mem_cons.1 later with same | inBack
    · exact absurd (same ▸ less) (List.lt_irrefl _)
    · exact absurd less (List.lt_asymm ((List.pairwise_cons.1 behind).1 other inBack))

/-- The first value that is looked for stands at the least place where one stands. -/
theorem find?_eq_some_iff (lists : Lists values stands) {wanted : α → Bool} {value : α} :
    values.find? wanted = some value ↔ ∃ place, stands place value ∧ wanted value = true ∧
      ∀ earlier other, earlier < place → stands earlier other → wanted other = false := by
  obtain ⟨placed, rfl, ordered, exact⟩ := lists
  rw [List.find?_map, Option.map_eq_some_iff]
  constructor
  · intro ⟨entry, found, same⟩
    obtain ⟨holds, front, back, split, passed⟩ := List.find?_eq_some_iff_append.1 found
    subst same
    refine ⟨entry.1, (exact _ _).1 (split ▸ List.mem_append_right _ (.head _)), holds, ?_⟩
    intro earlier other less here
    have inFront := (mem_front_iff ordered split ((exact _ _).2 here)).2 less
    simpa using passed _ inFront
  · intro ⟨place, here, holds, first⟩
    obtain ⟨front, back, split⟩ := List.append_of_mem ((exact _ _).2 here)
    refine ⟨(place, value), List.find?_eq_some_iff_append.2 ⟨holds, front, back, split, ?_⟩, rfl⟩
    intro other inFront
    have member : other ∈ placed := split ▸ List.mem_append_left _ inFront
    have less := (mem_front_iff ordered split member).1 inFront
    simpa using first other.1 other.2 less ((exact _ _).1 member)

theorem find?_eq_none_iff (lists : Lists values stands) {wanted : α → Bool} :
    values.find? wanted = none ↔ ∀ place value, stands place value → wanted value = false := by
  obtain ⟨placed, rfl, _, exact⟩ := lists
  rw [List.find?_eq_none, List.forall_mem_map]
  constructor
  · intro none place value here
    simpa using none _ ((exact _ _).2 here)
  · intro none entry member
    simpa using none entry.1 entry.2 ((exact _ _).1 member)

end Lists

namespace SyntaxNode

variable {enter : SyntaxNode → Bool} {root node other : SyntaxNode} {place : Place}

/-- A node that is reached over named children, through nodes whose children are walked. -/
inductive Passes (enter : SyntaxNode → Bool) : SyntaxNode → Place → SyntaxNode → Prop
  | here {node : SyntaxNode} : Passes enter node [] node
  | child {node child below : SyntaxNode} {index : Nat} {rest : Place} : enter node = true →
      node.Holds index child → Passes enter child rest below → Passes enter node (index :: rest) below

/-- A node that is reached over named children. -/
def Reaches (root : SyntaxNode) (place : Place) (node : SyntaxNode) : Prop :=
  Passes (fun _ => true) root place node

theorem Passes.at? (passes : Passes enter root place node) : root.at? place = some node := by
  induction passes with
  | here => rfl
  | child _ holds _ ih => exact at?_append (at?_single holds.1) ih

theorem Passes.unique (passes : Passes enter root place node) (passesToo : Passes enter root place other) :
    node = other :=
  Option.some_inj.1 (passes.at?.symm.trans passesToo.at?)

theorem emits_below (each : ∀ child, child.size < root.size → Emits (preorder enter child) (Passes enter child)) :
    Emits (root.namedChildren.flatMap (preorder enter)) fun place node => ∃ index child rest,
      place = index :: rest ∧ root.Holds index child ∧ Passes enter child rest node := by
  refine .namedChildren (fun index child holds => ?_) ?_
  · have smaller := size_lt_of_mem_namedChildren
      (List.mem_filter.2 ⟨List.mem_of_getElem? holds.1, holds.2⟩)
    refine (each child smaller).congr fun rest node => ⟨fun passes => ⟨index, child, rest, rfl, holds, passes⟩, ?_⟩
    intro ⟨_, found, _, same, holdsToo, passes⟩
    obtain ⟨rfl, rfl⟩ := List.cons_eq_cons.1 same
    obtain rfl := Option.some_inj.1 (holds.1.symm.trans holdsToo.1)
    exact passes
  · intro place node ⟨index, child, rest, same, holds, _⟩
    exact ⟨index, child, rest, holds, same⟩

theorem emits_preorder (enter : SyntaxNode → Bool) (root : SyntaxNode) :
    Emits (preorder enter root) (Passes enter root) := by
  -- On the size of the tree: only the named children are walked in turn.
  induction size : root.size using Nat.strongRecOn generalizing root with
  | ind bound ih =>
      subst size
      rw [preorder_eq, entered]
      refine .cons .here ?_
      split
      next entersHere =>
        refine (emits_below fun child smaller => ih _ smaller child rfl).congr fun place node => ⟨?_, ?_⟩
        · intro ⟨index, child, rest, same, holds, passes⟩
          subst same
          exact ⟨List.cons_ne_nil _ _, .child entersHere holds passes⟩
        · intro ⟨inner, passes⟩
          cases passes with
          | here => exact absurd rfl inner
          | child _ holds passes => exact ⟨_, _, _, rfl, holds, passes⟩
      next leaves =>
        refine .nil fun place node ⟨inner, passes⟩ => ?_
        cases passes with
        | here => exact inner rfl
        | child entersHere => exact leaves entersHere

/-- A walk with a stack lists the nodes that it passes. -/
theorem lists_visit (enter : SyntaxNode → Bool) (root : SyntaxNode) :
    Lists (visit enter [root]) (Passes enter root) := by
  rw [visit_eq_preorder, List.flatMap_singleton]
  exact .of_emits (emits_preorder enter root) fun _ _ _ passes passesToo => passes.unique passesToo

theorem lists_descendants (root : SyntaxNode) : Lists (visit (fun _ => true) root.namedChildren)
    fun place node => place ≠ [] ∧ root.Reaches place node := by
  rw [visit_eq_preorder]
  refine .of_emits ((emits_below fun child _ => emits_preorder _ child).congr fun place node => ⟨?_, ?_⟩)
    fun _ _ _ here there => here.2.unique there.2
  · intro ⟨index, child, rest, same, holds, passes⟩
    subst same
    exact ⟨List.cons_ne_nil _ _, .child rfl holds passes⟩
  · intro ⟨inner, reaches⟩
    cases reaches with
    | here => exact absurd rfl inner
    | child _ holds passes => exact ⟨_, _, _, rfl, holds, passes⟩

/-- A node is passed just if it is reached and every node on the way to it is entered. -/
theorem passes_iff : Passes enter root place node ↔ root.Reaches place node ∧
    ∀ way rest outer, place = way ++ rest → rest ≠ [] → root.Reaches way outer → enter outer = true := by
  constructor
  · intro passes
    induction passes with
    | here =>
        refine ⟨.here, fun way rest outer split inner => ?_⟩
        exact absurd (List.append_eq_nil_iff.1 split.symm).2 inner
    | @child node child below index more enters holds _ ih =>
        refine ⟨.child rfl holds ih.1, fun way rest outer split inner reaches => ?_⟩
        cases reaches with
        | here => exact enters
        | child _ holdsToo reaches =>
            obtain ⟨rfl, rests⟩ := List.cons_eq_cons.1 split
            obtain rfl := Option.some_inj.1 (holds.1.symm.trans holdsToo.1)
            exact ih.2 _ rest outer rests inner reaches
  · intro ⟨reaches, enters⟩
    induction reaches with
    | here => exact .here
    | @child node child below index more _ holds _ ih =>
        refine .child (enters [] _ node rfl (List.cons_ne_nil _ _) .here) holds (ih fun way rest outer split => ?_)
        intro inner reaches
        exact enters (index :: way) rest outer (congrArg _ split) inner (.child rfl holds reaches)

end SyntaxNode

end SourceBaseline
