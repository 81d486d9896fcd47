import SourceBaseline.Text.Utf8

/-!
# Syntax trees

A syntax tree describes a text: every node has a kind, covers a range of bytes, and may fill a field
of the node above it. `visit` walks a tree with a stack, and `preorder` walks it by recursion;
`visit_eq_preorder` says that both come to the same nodes in the same order.
-/

set_option autoImplicit false

namespace SourceBaseline

/-- A node of a syntax tree over a text. Offsets count bytes. -/
structure SyntaxNode where
  kind : String
  named : Bool
  field : Option String
  start : Nat
  stop : Nat
  children : List SyntaxNode
  deriving Inhabited

/-- A node and the siblings before it, the nearest first. -/
structure SyntaxCursor where
  node : SyntaxNode
  before : List SyntaxNode
  deriving Inhabited

namespace SyntaxNode

mutual

def size : SyntaxNode → Nat
  | ⟨_, _, _, _, _, children⟩ => sizes children + 1

def sizes : List SyntaxNode → Nat
  | [] => 0
  | node :: rest => size node + sizes rest

end

theorem sizes_append (left right : List SyntaxNode) :
    sizes (left ++ right) = sizes left + sizes right := by
  induction left with
  | nil => simp [sizes]
  | cons node rest ih => simp [sizes, ih, Nat.add_assoc]

theorem sizes_reverse (nodes : List SyntaxNode) : sizes nodes.reverse = sizes nodes := by
  induction nodes with
  | nil => rfl
  | cons node rest ih =>
      simp only [List.reverse_cons, sizes_append, sizes, ih]
      omega

theorem sizes_filter_le (keep : SyntaxNode → Bool) (nodes : List SyntaxNode) :
    sizes (nodes.filter keep) ≤ sizes nodes := by
  induction nodes with
  | nil => simp
  | cons node rest ih =>
      simp only [List.filter_cons, sizes]
      split
      · simp only [sizes]; omega
      · omega

theorem size_le_sizes {node : SyntaxNode} {nodes : List SyntaxNode} (member : node ∈ nodes) :
    node.size ≤ sizes nodes := by
  induction nodes with
  | nil => cases member
  | cons head rest ih =>
      simp only [sizes]
      rcases List.mem_cons.1 member with same | inRest
      · subst same; omega
      · have := ih inRest; omega

theorem sizes_children_lt (node : SyntaxNode) : sizes node.children < node.size := by
  cases node
  simp [size]

def namedChildren (node : SyntaxNode) : List SyntaxNode :=
  node.children.filter SyntaxNode.named

theorem sizes_namedChildren_lt (node : SyntaxNode) : sizes node.namedChildren < node.size :=
  Nat.lt_of_le_of_lt (sizes_filter_le _ _) (sizes_children_lt node)

theorem size_lt_of_mem_namedChildren {child node : SyntaxNode}
    (member : child ∈ node.namedChildren) : child.size < node.size :=
  Nat.lt_of_le_of_lt (size_le_sizes member) (sizes_namedChildren_lt node)

def field? (node : SyntaxNode) (name : String) : Option SyntaxNode :=
  node.children.find? (·.field = some name)

theorem size_lt_of_field? {child node : SyntaxNode} {name : String}
    (found : node.field? name = some child) : child.size < node.size :=
  Nat.lt_of_le_of_lt (size_le_sizes (List.mem_of_find?_eq_some found)) (sizes_children_lt node)

def fieldNodes (node : SyntaxNode) (name : String) : List SyntaxNode :=
  node.children.filter (·.field = some name)

def firstNamed? (node : SyntaxNode) : Option SyntaxNode :=
  node.namedChildren.head?

def fieldOfKind? (node : SyntaxNode) (name kind : String) : Option SyntaxNode :=
  (node.field? name).filter (·.kind = kind)

/-- The nodes each with the siblings before it, where `before` stand before the first. -/
def cursorsFrom (before : List SyntaxNode) : List SyntaxNode → List SyntaxCursor
  | [] => []
  | node :: rest => ⟨node, before⟩ :: cursorsFrom (node :: before) rest

def namedCursors (node : SyntaxNode) : List SyntaxCursor :=
  (cursorsFrom [] node.children).filter (·.node.named)

theorem node_mem_of_mem_cursorsFrom {cursor : SyntaxCursor} {before nodes : List SyntaxNode}
    (member : cursor ∈ cursorsFrom before nodes) : cursor.node ∈ nodes := by
  induction nodes generalizing before with
  | nil => cases member
  | cons node rest ih =>
      rcases List.mem_cons.1 member with same | inRest
      · subst same; exact List.mem_cons_self ..
      · exact List.mem_cons_of_mem _ (ih inRest)

theorem size_lt_of_mem_namedCursors {cursor : SyntaxCursor} {node : SyntaxNode}
    (member : cursor ∈ node.namedCursors) : cursor.node.size < node.size :=
  Nat.lt_of_le_of_lt
    (size_le_sizes (node_mem_of_mem_cursorsFrom (List.mem_filter.1 member).1))
    (sizes_children_lt node)

/-- The nodes whose children are walked: those below a node that `enter` accepts. -/
def entered (enter : SyntaxNode → Bool) (node : SyntaxNode) : List SyntaxNode :=
  if enter node then node.namedChildren else []

theorem sizes_entered_lt (enter : SyntaxNode → Bool) (node : SyntaxNode) :
    sizes (entered enter node) < node.size := by
  unfold entered
  split
  · exact sizes_namedChildren_lt node
  · have := sizes_children_lt node
    simp only [sizes]; omega

/-- Walk the nodes on a stack and what is below those that `enter` accepts. -/
def visit (enter : SyntaxNode → Bool) : List SyntaxNode → List SyntaxNode
  | [] => []
  | node :: stack => node :: visit enter (entered enter node ++ stack)
termination_by stack => sizes stack
decreasing_by
  have := sizes_entered_lt enter node
  simp only [sizes_append, sizes]
  omega

def preorder (enter : SyntaxNode → Bool) (node : SyntaxNode) : List SyntaxNode :=
  node :: (entered enter node).attach.flatMap fun child => preorder enter child.1
termination_by node.size
decreasing_by
  exact Nat.lt_of_le_of_lt (size_le_sizes child.2) (sizes_entered_lt enter node)

theorem preorder_eq (enter : SyntaxNode → Bool) (node : SyntaxNode) :
    preorder enter node = node :: (entered enter node).flatMap (preorder enter) := by
  rw [preorder]
  simp [List.flatMap_subtype]

/-- The walk with a stack lists each stacked tree by recursion. -/
theorem visit_eq_preorder (enter : SyntaxNode → Bool) (stack : List SyntaxNode) :
    visit enter stack = stack.flatMap (preorder enter) := by
  fun_induction visit enter stack with
  | case1 => rfl
  | case2 node stack ih =>
      rw [ih, List.flatMap_append, List.flatMap_cons, preorder_eq, List.cons_append]

def descendantOfKind? (node : SyntaxNode) (kind : String) : Option SyntaxNode :=
  (visit (fun _ => true) node.namedChildren).find? (·.kind = kind)

def text? (node : SyntaxNode) (source : List Char) : Option (List Char) :=
  Text.slice? source node.start node.stop

def fieldText? (node : SyntaxNode) (name : String) (source : List Char) : Option (List Char) :=
  (node.field? name).bind fun child => child.text? source

/-- The zero-based line on which a node starts. -/
def startRow (node : SyntaxNode) (source : List Char) : Nat :=
  Text.rowAt node.start source

def endRow (node : SyntaxNode) (source : List Char) : Nat :=
  Text.rowAt node.stop source

end SyntaxNode

end SourceBaseline
