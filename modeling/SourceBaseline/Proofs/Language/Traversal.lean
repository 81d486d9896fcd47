import SourceBaseline.Language.Markdown
import SourceBaseline.Language.TypeScript
import SourceBaseline.Proofs.SyntaxTree.Preorder

/-!
# Walks over whole trees

Three searches go through a tree with a stack: for the first node of a kind, for the commands that are
registered, and for the code blocks of a text. `walks_in_preorder` says what each finds, and that it finds
it in the order in which a recursion would.
-/

set_option autoImplicit false

namespace SourceBaseline

variable {source : Source} {root : SyntaxNode}

namespace TypeScript

/-- A call registers a command, and no call before it registers one with this name. -/
def FirstRegisters (source : Source) (root : SyntaxNode) (place : Place) (symbol : Symbol) : Prop :=
  (∃ call, root.Reaches place call ∧ registration? source call = some symbol) ∧
    ∀ earlier call other, earlier < place → root.Reaches earlier call →
      registration? source call = some other → other.name ≠ symbol.name

/-- Of symbols at increasing places, each is kept whose name no symbol before it has. -/
theorem exists_kept (placed : List (Place × Symbol))
    (ordered : placed.Pairwise fun earlier later => earlier.1 < later.1) :
    ∃ kept : List (Place × Symbol), firstRegistrations (placed.map Prod.snd) = kept.map Prod.snd ∧
      kept.Sublist placed ∧ ∀ entry ∈ placed, entry ∈ kept ↔
        ∀ earlier ∈ placed, earlier.1 < entry.1 → earlier.2.name ≠ entry.2.name := by
  induction placed with
  | nil => exact ⟨[], rfl, .slnil, nofun⟩
  | cons first rest ih =>
      obtain ⟨before, ordered⟩ := List.pairwise_cons.1 ordered
      obtain ⟨kept, same, within, exact⟩ := ih ordered
      refine ⟨first :: kept.filter (·.2.name ≠ first.2.name), ?_, ?_, ?_⟩
      · rw [List.map_cons, firstRegistrations, same, List.filter_map]
        rfl
      · exact (List.filter_sublist.trans within).cons_cons first
      · intro entry member
        rcases List.mem_cons.1 member with rfl | later
        · refine ⟨fun _ earlier found less => ?_, fun _ => .head _⟩
          rcases List.mem_cons.1 found with rfl | behind
          · exact absurd less (List.lt_irrefl _)
          · exact absurd less (List.lt_asymm (before earlier behind))
        · have less := before entry later
          have other : entry ≠ first := fun same => List.lt_irrefl _ (same ▸ less)
          rw [List.mem_cons, or_iff_right other, List.mem_filter, exact entry later, List.forall_mem_cons]
          constructor
          · intro ⟨fresh, different⟩
            exact ⟨fun _ => Ne.symm (of_decide_eq_true different), fresh⟩
          · intro ⟨different, fresh⟩
            exact ⟨fresh, decide_eq_true (Ne.symm (different less))⟩

theorem lists_registrations : Lists (registrations source root) (FirstRegisters source root) := by
  have found := (SyntaxNode.lists_visit (fun _ => true) root).filterMap (registration? source)
  obtain ⟨placed, listed, ordered, exact⟩ := found
  obtain ⟨kept, same, within, kept_iff⟩ := exists_kept placed ordered
  refine ⟨kept, ?_, ordered.sublist within, fun place symbol => ?_⟩
  · rw [registrations, listed, same]
  · constructor
    · intro member
      have inside := within.subset member
      refine ⟨(exact place symbol).1 inside, fun earlier call other less reaches registers => ?_⟩
      exact (kept_iff _ inside).1 member (earlier, other) ((exact _ _).2 ⟨call, reaches, registers⟩) less
    · intro ⟨registers, first⟩
      refine (kept_iff _ ((exact place symbol).2 registers)).2 fun earlier member less => ?_
      obtain ⟨call, reaches, registersToo⟩ := (exact earlier.1 earlier.2).1 member
      exact first earlier.1 call earlier.2 less reaches registersToo

end TypeScript

namespace Markdown

/-- A fenced code block that does not stand in another one. -/
def Outermost (root : SyntaxNode) (place : Place) (block : SyntaxNode) : Prop :=
  root.Reaches place block ∧ block.kind = "fenced_code_block" ∧
    ∀ way rest outer, place = way ++ rest → rest ≠ [] → root.Reaches way outer →
      outer.kind ≠ "fenced_code_block"

theorem lists_fencedBlocks : Lists (fencedBlocks root) (Outermost root) := by
  refine ((SyntaxNode.lists_visit _ root).filter _).congr fun place block => ?_
  simp only [SyntaxNode.passes_iff, Outermost, decide_eq_true_eq, and_assoc, and_congr_right_iff]
  exact fun _ => and_comm

end Markdown

/-- The walks with a stack are recursions in pre-order. The first node of a kind below the root, the calls
that register a command first, and the code blocks that stand in no other one are what they come to, each
once and in the order of their places. -/
theorem walks_in_preorder (source : Source) (parseShell : List Char → SyntaxNode) (root : SyntaxNode)
    (kind : String) :
    SyntaxNode.visit (fun _ => true) [root] = SyntaxNode.preorder (fun _ => true) root ∧
      Lists (SyntaxNode.preorder (fun _ => true) root) root.Reaches ∧
      (∀ node, root.descendantOfKind? kind = some node ↔ ∃ place, place ≠ [] ∧ root.Reaches place node ∧
        node.kind = kind ∧ ∀ earlier other, earlier < place → earlier ≠ [] → root.Reaches earlier other →
          other.kind ≠ kind) ∧
      (root.descendantOfKind? kind = none ↔
        ∀ place node, place ≠ [] → root.Reaches place node → node.kind ≠ kind) ∧
      Lists (TypeScript.registrations source root) (TypeScript.FirstRegisters source root) ∧
      Lists (Markdown.fencedBlocks root) (Markdown.Outermost root) ∧
      Markdown.symbols source parseShell root =
        (Markdown.fencedBlocks root).flatMap (Markdown.blockSymbols source parseShell) := by
  have walked : SyntaxNode.visit (fun _ => true) [root] = SyntaxNode.preorder (fun _ => true) root := by
    rw [SyntaxNode.visit_eq_preorder, List.flatMap_singleton]
  have below := SyntaxNode.lists_descendants root
  refine ⟨walked, walked ▸ SyntaxNode.lists_visit _ root, fun node => ?_, ?_,
    TypeScript.lists_registrations, Markdown.lists_fencedBlocks, rfl⟩
  · rw [SyntaxNode.descendantOfKind?, below.find?_eq_some_iff]
    simp only [decide_eq_true_eq, decide_eq_false_iff_not, and_assoc, and_imp, ne_eq]
  · rw [SyntaxNode.descendantOfKind?, below.find?_eq_none_iff]
    simp only [decide_eq_false_iff_not, and_imp, ne_eq]

end SourceBaseline
