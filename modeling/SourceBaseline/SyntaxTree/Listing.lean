import SourceBaseline.Json.Decode
import SourceBaseline.SyntaxTree

/-!
# Listed trees

A grammar hands over a tree as the list of its nodes, each before the nodes below it, with the depth
at which it stands.
-/

set_option autoImplicit false

namespace SourceBaseline

structure ListedNode where
  depth : Nat
  kind : String
  named : Bool
  field : Option String
  start : Nat
  stop : Nat
  deriving DecidableEq, Inhabited

namespace ListedNode

/-- Read a node from a document: its depth, kind, whether it is named, its field, and where it
starts and ends. -/
def decode? (json : Json) : Option ListedNode := do
  match ← json.items? with
  | [depth, kind, named, field, start, stop] =>
      pure {
        depth := ← depth.natBelow? UInt32.size
        kind := ← kind.text?
        named := (← named.natBelow? 2) = 1
        field := ← Json.optional Json.text? (some field)
        start := ← start.natBelow? UInt64.size
        stop := ← stop.natBelow? UInt64.size }
  | _ => none

/-- Put a node in front of trees, each with its depth. The deeper ones before any other are what is
below the node. -/
def attach (listed : ListedNode) (forest : List (Nat × SyntaxNode)) : List (Nat × SyntaxNode) :=
  let isBelow := fun (tree : Nat × SyntaxNode) => listed.depth < tree.1
  (listed.depth, {
    kind := listed.kind
    named := listed.named
    field := listed.field
    start := listed.start
    stop := listed.stop
    children := (forest.takeWhile isBelow).map Prod.snd }) :: forest.dropWhile isBelow

end ListedNode

def SyntaxNode.ofListing? (nodes : List ListedNode) : Option SyntaxNode :=
  match nodes.foldr ListedNode.attach [] with
  | [(_, root)] => some root
  | _ => none

end SourceBaseline
