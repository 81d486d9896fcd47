import SourceBaseline.SyntaxTree

/-!
# Places in syntax trees

A place is the way down to a node, the index of a child for each step. Pre-order is the lexicographic
order of places: a node comes before what is below it, and what is below a child before the next one.

A walk over a tree emits values at places. `Emits` says that it emits one value at each place where
something is declared, in pre-order, and nothing else; the lemmas follow the ways in which a walk is
put together.
-/

set_option autoImplicit false

namespace SourceBaseline

/-- The indices of the children on the way to a node. -/
abbrev Place := List Nat

namespace SyntaxNode

variable {node child : SyntaxNode} {index : Nat} {name : String}

def at? : SyntaxNode → Place → Option SyntaxNode
  | node, [] => some node
  | node, index :: rest => node.children[index]?.bind fun child => child.at? rest

/-- A named child, with its index. -/
def Holds (node : SyntaxNode) (index : Nat) (child : SyntaxNode) : Prop :=
  node.children[index]? = some child ∧ child.named = true

/-- The child that fills a field, with its index. -/
def Fills (node : SyntaxNode) (name : String) (index : Nat) (child : SyntaxNode) : Prop :=
  node.children.findIdx? (·.field = some name) = some index ∧ node.children[index]? = some child

theorem field?_of_fills (fills : node.Fills name index child) : node.field? name = some child := by
  obtain ⟨found, stands⟩ := fills
  obtain ⟨inside, holds, before⟩ := List.findIdx?_eq_some_iff_getElem.1 found
  rw [List.getElem?_eq_getElem inside, Option.some_inj] at stands
  subst stands
  exact List.find?_eq_some_iff_getElem.2 ⟨holds, index, inside, rfl, by simpa using before⟩

theorem exists_fills_of_field? (found : node.field? name = some child) :
    ∃ index, node.Fills name index child := by
  obtain ⟨holds, index, inside, rfl, before⟩ := List.find?_eq_some_iff_getElem.1 found
  exact ⟨index, List.findIdx?_eq_some_iff_getElem.2 ⟨inside, holds, by simpa using before⟩,
    List.getElem?_eq_getElem inside⟩

theorem Fills.unique {other : SyntaxNode} {otherIndex : Nat} (fills : node.Fills name index child)
    (fillsToo : node.Fills name otherIndex other) : index = otherIndex ∧ child = other := by
  obtain rfl := Option.some_inj.1 (fills.1.symm.trans fillsToo.1)
  exact ⟨rfl, Option.some_inj.1 (fills.2.symm.trans fillsToo.2)⟩

theorem at?_append {below : SyntaxNode} {place rest : Place} (leads : node.at? place = some child)
    (leadsOn : child.at? rest = some below) : node.at? (place ++ rest) = some below := by
  induction place generalizing node with
  | nil =>
      cases leads
      exact leadsOn
  | cons index place ih =>
      obtain ⟨next, stands, leads⟩ := Option.bind_eq_some_iff.1 leads
      exact Option.bind_eq_some_iff.2 ⟨next, stands, ih leads⟩

theorem at?_single (stands : node.children[index]? = some child) : node.at? [index] = some child :=
  Option.bind_eq_some_iff.2 ⟨child, stands, rfl⟩

theorem map_node_cursorsFrom {before nodes : List SyntaxNode} :
    (cursorsFrom before nodes).map SyntaxCursor.node = nodes := by
  induction nodes generalizing before with
  | nil => rfl
  | cons node rest ih => exact congrArg (node :: ·) ih

theorem map_node_namedCursors : node.namedCursors.map SyntaxCursor.node = node.namedChildren := by
  have nodes := congrArg (List.filter named) (@map_node_cursorsFrom [] node.children)
  rw [List.filter_map] at nodes
  exact nodes

/-- A node of a tree: the root, or a node below it. -/
def Has (root node : SyntaxNode) : Prop :=
  ∃ place, root.at? place = some node

theorem Has.refl (node : SyntaxNode) : node.Has node :=
  ⟨[], rfl⟩

theorem Has.trans {below : SyntaxNode} (has : node.Has child) (hasBelow : child.Has below) :
    node.Has below := by
  obtain ⟨place, leads⟩ := has
  obtain ⟨rest, leadsOn⟩ := hasBelow
  exact ⟨place ++ rest, at?_append leads leadsOn⟩

theorem has_of_mem_children (member : child ∈ node.children) : node.Has child := by
  obtain ⟨index, stands⟩ := List.mem_iff_getElem?.1 member
  exact ⟨[index], at?_single stands⟩

theorem has_of_mem_namedChildren (member : child ∈ node.namedChildren) : node.Has child :=
  has_of_mem_children (List.mem_filter.1 member).1

theorem has_of_mem_namedCursors {cursor : SyntaxCursor} (member : cursor ∈ node.namedCursors) :
    node.Has cursor.node :=
  has_of_mem_children (node_mem_of_mem_cursorsFrom (List.mem_filter.1 member).1)

theorem has_of_field? (found : node.field? name = some child) : node.Has child :=
  has_of_mem_children (List.mem_of_find?_eq_some found)

end SyntaxNode

/-! ## What a walk emits -/

/-- The values stand for the places where something is declared, each once and in pre-order. -/
def Emits {α : Type} (values : List α) (declared : Place → α → Prop) : Prop :=
  ∃ placed : List (Place × α), values = placed.map Prod.snd ∧
    placed.Pairwise (fun earlier later => earlier.1 < later.1) ∧
    (∀ entry ∈ placed, declared entry.1 entry.2) ∧
    ∀ place value, declared place value → ∃ other, (place, other) ∈ placed

namespace Emits

variable {α β : Type} {values : List α} {declared : Place → α → Prop}

theorem congr {described : Place → α → Prop} (emits : Emits values described)
    (same : ∀ place value, described place value ↔ declared place value) : Emits values declared := by
  obtain rfl : described = declared := funext fun place => funext fun value =>
    propext (same place value)
  exact emits

theorem nil (none : ∀ place value, ¬ declared place value) : Emits [] declared :=
  ⟨[], rfl, .nil, nofun, fun place value declares => (none place value declares).elim⟩

/-- What is emitted for a node itself comes before what is emitted below it. -/
theorem cons {value : α} (here : declared [] value)
    (below : Emits values fun place value => place ≠ [] ∧ declared place value) :
    Emits (value :: values) declared := by
  obtain ⟨placed, rfl, ordered, sound, complete⟩ := below
  refine ⟨([], value) :: placed, rfl, List.pairwise_cons.2 ⟨fun entry member => ?_, ordered⟩, ?_, ?_⟩
  · obtain ⟨index, rest, same⟩ := List.exists_cons_of_ne_nil (sound entry member).1
    rw [same]
    exact List.nil_lt_cons index rest
  · exact List.forall_mem_cons.2 ⟨here, fun entry member => (sound entry member).2⟩
  · intro place other declares
    by_cases top : place = []
    · exact ⟨value, top ▸ .head _⟩
    · obtain ⟨found, member⟩ := complete place other ⟨top, declares⟩
      exact ⟨found, .tail _ member⟩

theorem single {value : α} (here : declared [] value)
    (only : ∀ place other, declared place other → place = []) : Emits [value] declared :=
  cons here (nil fun place other ⟨inner, declares⟩ => inner (only place other declares))

theorem option {found : Option α} (here : ∀ value, found = some value → declared [] value)
    (only : ∀ place value, declared place value → place = [] ∧ found.isSome = true) :
    Emits found.toList declared := by
  cases found with
  | none => exact nil fun place value declares => nomatch (only place value declares).2
  | some value => exact single (here value rfl) fun place other declares => (only place other declares).1

/-- What is emitted for a node below is emitted at the places that begin with the way there. -/
theorem below (way : Place) (emits : Emits values fun place => declared (way ++ place))
    (only : ∀ place value, declared place value → ∃ rest, place = way ++ rest) :
    Emits values declared := by
  obtain ⟨placed, rfl, ordered, sound, complete⟩ := emits
  refine ⟨placed.map fun entry => (way ++ entry.1, entry.2), ?_, ?_, ?_, ?_⟩
  · rw [List.map_map]
    rfl
  · exact List.pairwise_map.2 (ordered.imp fun before => List.append_left_lt before)
  · intro entry member
    obtain ⟨inner, inside, rfl⟩ := List.mem_map.1 member
    exact sound inner inside
  · intro place value declares
    obtain ⟨rest, rfl⟩ := only place value declares
    obtain ⟨other, member⟩ := complete rest value declares
    exact ⟨other, List.mem_map.2 ⟨_, member, rfl⟩⟩

theorem field {node : SyntaxNode} {name : String} {emitted : SyntaxNode → List α}
    {inner : Nat → SyntaxNode → Place → α → Prop}
    (same : values = (node.field? name).elim [] emitted)
    (each : ∀ index child, node.Fills name index child → Emits (emitted child) (inner index child))
    (declared_iff : ∀ place value, declared place value ↔
      ∃ index child rest, node.Fills name index child ∧ place = index :: rest ∧
        inner index child rest value) :
    Emits values declared := by
  cases found : node.field? name with
  | none =>
      rw [same, found]
      refine nil fun place value declares => ?_
      obtain ⟨_, _, _, fills, _⟩ := (declared_iff place value).1 declares
      cases found.symm.trans (SyntaxNode.field?_of_fills fills)
  | some child =>
      obtain ⟨index, fills⟩ := SyntaxNode.exists_fills_of_field? found
      rw [same, found]
      refine below [index] ((each index child fills).congr fun rest value => ⟨?_, ?_⟩) ?_
      · exact fun declares => (declared_iff _ value).2 ⟨index, child, rest, fills, rfl, declares⟩
      · intro declares
        obtain ⟨_, _, _, fillsToo, same, declares⟩ := (declared_iff _ value).1 declares
        obtain ⟨rfl, rfl⟩ := List.cons_eq_cons.1 same
        obtain ⟨_, rfl⟩ := fills.unique fillsToo
        exact declares
      · intro place value declares
        obtain ⟨_, _, rest, fillsToo, rfl, _⟩ := (declared_iff place value).1 declares
        exact ⟨rest, (fills.unique fillsToo).1 ▸ rfl⟩

/-- What is emitted for several items one after the other, where the first has the index `start`. -/
theorem items {emitted : β → List α} (start : Nat) (all : List β)
    (each : ∀ index item, all[index]? = some item →
      Emits (emitted item) fun place => declared ((start + index) :: place)) :
    ∃ placed : List (Place × α), all.flatMap emitted = placed.map Prod.snd ∧
      placed.Pairwise (fun earlier later => earlier.1 < later.1) ∧
      (∀ entry ∈ placed, declared entry.1 entry.2 ∧
        ∃ index rest, entry.1 = index :: rest ∧ start ≤ index) ∧
      ∀ index rest value, index < all.length → declared ((start + index) :: rest) value →
        ∃ other, ((start + index) :: rest, other) ∈ placed := by
  induction all generalizing start with
  | nil => exact ⟨[], rfl, .nil, nofun, nofun⟩
  | cons item more ih =>
      -- The first item is emitted below `start`, and the others below greater indices.
      obtain ⟨first, same, ordered, sound, complete⟩ := each 0 item rfl
      obtain ⟨later, sameToo, orderedToo, soundToo, completeToo⟩ := ih (start + 1)
        fun index other found => by
          rw [Nat.add_assoc, Nat.add_comm 1]
          exact each (index + 1) other found
      refine ⟨first.map (fun entry => (start :: entry.1, entry.2)) ++ later, ?_, ?_, ?_, ?_⟩
      · rw [List.flatMap_cons, List.map_append, List.map_map, same, sameToo]
        rfl
      · refine List.pairwise_append.2 ⟨List.pairwise_map.2 (ordered.imp fun before => ?_),
          orderedToo, fun earlier member entry inside => ?_⟩
        · exact List.cons_lt_cons_iff.2 (.inr ⟨rfl, before⟩)
        · obtain ⟨inner, _, rfl⟩ := List.mem_map.1 member
          obtain ⟨_, index, rest, here, above⟩ := soundToo entry inside
          rw [here]
          exact List.cons_lt_cons_iff.2 (.inl above)
      · intro entry member
        rcases List.mem_append.1 member with member | member
        · obtain ⟨inner, inside, rfl⟩ := List.mem_map.1 member
          exact ⟨sound inner inside, start, inner.1, rfl, Nat.le_refl _⟩
        · obtain ⟨declares, index, rest, here, above⟩ := soundToo entry member
          exact ⟨declares, index, rest, here, Nat.le_of_succ_le above⟩
      · intro index rest value inside declares
        cases index with
        | zero =>
            obtain ⟨other, member⟩ := complete rest value declares
            exact ⟨other, List.mem_append_left _ (List.mem_map.2 ⟨_, member, rfl⟩)⟩
        | succ index =>
            rw [← Nat.add_assoc, Nat.add_right_comm] at declares ⊢
            obtain ⟨other, member⟩ := completeToo index rest value
              (Nat.lt_of_succ_lt_succ inside) declares
            exact ⟨other, List.mem_append_right _ member⟩

theorem flatMap {emitted : β → List α} {all : List β}
    (each : ∀ index item, all[index]? = some item →
      Emits (emitted item) fun place => declared (index :: place))
    (only : ∀ place value, declared place value →
      ∃ index rest, place = index :: rest ∧ index < all.length) :
    Emits (all.flatMap emitted) declared := by
  obtain ⟨placed, same, ordered, sound, complete⟩ := items 0 all fun index item found => by
    rw [Nat.zero_add]
    exact each index item found
  refine ⟨placed, same, ordered, fun entry member => (sound entry member).1, ?_⟩
  intro place value declares
  obtain ⟨index, rest, rfl, inside⟩ := only place value declares
  rw [← Nat.zero_add index] at declares ⊢
  exact complete index rest value inside declares

theorem flatMap_filter (keep : β → Bool) (emitted : β → List α) (all : List β) :
    (all.filter keep).flatMap emitted =
      all.flatMap fun item => if keep item then emitted item else [] := by
  induction all with
  | nil => rfl
  | cons item rest ih =>
      rw [List.filter_cons, List.flatMap_cons, ← ih]
      split <;> rfl

theorem namedCursors {node : SyntaxNode} {emitted : SyntaxCursor → List α}
    (each : ∀ index cursor, node.Holds index cursor.node →
      Emits (emitted cursor) fun place => declared (index :: place))
    (only : ∀ place value, declared place value →
      ∃ index child rest, node.Holds index child ∧ place = index :: rest) :
    Emits (node.namedCursors.flatMap emitted) declared := by
  rw [SyntaxNode.namedCursors, flatMap_filter]
  have nodes : (SyntaxNode.cursorsFrom [] node.children).map SyntaxCursor.node = node.children :=
    SyntaxNode.map_node_cursorsFrom
  refine flatMap (fun index cursor found => ?_) fun place value declares => ?_
  · have stands : node.children[index]? = some cursor.node := by
      rw [← nodes, List.getElem?_map, found]
      rfl
    by_cases named : cursor.node.named = true
    · rw [if_pos named]
      exact each index cursor ⟨stands, named⟩
    · rw [if_neg named]
      refine nil fun rest value declares => ?_
      obtain ⟨_, child, _, ⟨holds, namedToo⟩, ⟨⟩⟩ := only _ _ declares
      exact named (Option.some_inj.1 (stands.symm.trans holds) ▸ namedToo)
  · obtain ⟨index, child, rest, ⟨holds, _⟩, rfl⟩ := only place value declares
    have inside := (List.getElem?_eq_some_iff.1 holds).1
    rw [← nodes, List.length_map] at inside
    exact ⟨index, rest, rfl, inside⟩

theorem namedChildren {node : SyntaxNode} {emitted : SyntaxNode → List α}
    (each : ∀ index child, node.Holds index child →
      Emits (emitted child) fun place => declared (index :: place))
    (only : ∀ place value, declared place value →
      ∃ index child rest, node.Holds index child ∧ place = index :: rest) :
    Emits (node.namedChildren.flatMap emitted) declared := by
  rw [← SyntaxNode.map_node_namedCursors, List.flatMap_map]
  exact namedCursors (fun index cursor holds => each index cursor.node holds) only

end Emits

end SourceBaseline
