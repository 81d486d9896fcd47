import SourceBaseline.Language.Shell
import SourceBaseline.Proofs.Language.Naming

/-!
# What is found in a shell script

Every symbol of a script stands for a statement at its top or for an assignment in one.
-/

set_option autoImplicit false

namespace SourceBaseline.Shell

variable {source : Source} {root : SyntaxNode} {cursor : SyntaxCursor} {symbol : Symbol}

/-- What can have a symbol: a command, a function or an assignment at the top of a script, or an
assignment in a declaration command. -/
inductive Declares (root : SyntaxNode) : SyntaxNode → Prop
  | statement {node : SyntaxNode} : node ∈ root.namedChildren →
      node.kind ∈ ["command", "function_definition", "variable_assignment"] → Declares root node
  | assigned {statement node : SyntaxNode} : statement ∈ root.namedChildren →
      statement.kind = "declaration_command" → node ∈ statement.namedChildren →
      node.kind = "variable_assignment" → Declares root node

theorem Declares.has {node : SyntaxNode} (declares : Declares root node) : root.Has node := by
  cases declares with
  | statement stands => exact SyntaxNode.has_of_mem_namedChildren stands
  | assigned stands _ inside =>
      exact (SyntaxNode.has_of_mem_namedChildren stands).trans
        (SyntaxNode.has_of_mem_namedChildren inside)

theorem standsFor_of_aliasSymbol? (isCommand : cursor.node.kind = "command")
    (found : aliasSymbol? source cursor = some symbol) : source.StandsFor symbol cursor.node none := by
  obtain ⟨command, _, found⟩ := Option.bind_eq_some_iff.1 found
  split at found
  next => cases found
  next =>
    obtain ⟨argument, holds, found⟩ := Option.bind_eq_some_iff.1 found
    obtain ⟨text, read, found⟩ := Option.bind_eq_some_iff.1 found
    obtain ⟨parts, split, same⟩ := Option.bind_eq_some_iff.1 found
    cases same
    have named : (Title.assigned argument).name? source.text = some (Text.trim parts.1) :=
      Option.bind_eq_some_iff.2 ⟨text, read, Option.map_eq_some_iff.2 ⟨parts, split, rfl⟩⟩
    exact ⟨.assigned argument, _, .assigned isCommand holds, named,
      Title.eq_nil_iff_of_assigned named, rfl, rfl, rfl, rfl, rfl⟩

theorem standsFor_of_functionSymbol? (found : functionSymbol? source cursor = some symbol) :
    source.StandsFor symbol cursor.node none := by
  obtain ⟨name, named, same⟩ := Option.bind_eq_some_iff.1 found
  cases same
  exact Source.standsFor_of_fieldText? named ⟨rfl, rfl, rfl, rfl, rfl⟩

theorem standsFor_of_assignmentSymbol? {kind : SymbolKind} {doc : Option String} {node : SyntaxNode}
    (found : assignmentSymbol? source kind doc node = some symbol) :
    source.StandsFor symbol node none := by
  obtain ⟨name, named, same⟩ := Option.map_eq_some_iff.1 found
  subst same
  exact Source.standsFor_of_fieldText? named ⟨rfl, rfl, rfl, rfl, rfl⟩

theorem mem_of_mem_firstsByName {all : List Symbol} (member : symbol ∈ firstsByName all) :
    symbol ∈ all := by
  induction all with
  | nil => cases member
  | cons first rest ih =>
      rcases List.mem_cons.1 member with rfl | later
      · exact .head _
      · exact .tail _ (ih (List.mem_filter.1 later).1)

theorem exists_standsFor_of_mem_statementSymbols (stands : cursor.node ∈ root.namedChildren)
    (member : symbol ∈ statementSymbols source cursor) :
    ∃ node, Declares root node ∧ source.StandsFor symbol node none := by
  unfold statementSymbols at member
  split at member
  next kind =>
    have found := Option.mem_toList.1 member
    exact ⟨cursor.node, .statement stands (by simp [kind]), standsFor_of_aliasSymbol? kind found⟩
  next kind =>
    obtain ⟨node, inside, found⟩ := List.mem_filterMap.1 member
    obtain ⟨inside, isAssignment⟩ := List.mem_filter.1 inside
    exact ⟨node, .assigned stands kind inside (of_decide_eq_true isAssignment),
      standsFor_of_assignmentSymbol? found⟩
  next kind =>
    have found := Option.mem_toList.1 member
    exact ⟨cursor.node, .statement stands (by simp [kind]), standsFor_of_functionSymbol? found⟩
  next kind =>
    have found := Option.mem_toList.1 member
    exact ⟨cursor.node, .statement stands (by simp [kind]), standsFor_of_assignmentSymbol? found⟩
  next => cases member

theorem exists_standsFor_of_mem_symbols (member : symbol ∈ symbols source root) :
    ∃ node, Declares root node ∧ source.StandsFor symbol node none := by
  obtain ⟨cursor, stands, inside⟩ := List.mem_flatMap.1 (mem_of_mem_firstsByName member)
  refine exists_standsFor_of_mem_statementSymbols ?_ inside
  rw [← SyntaxNode.map_node_namedCursors]
  exact List.mem_map.2 ⟨cursor, stands, rfl⟩

theorem exists_records_of_mem_symbols (member : symbol ∈ symbols source root) :
    ∃ node name, Declares root node ∧ source.Records symbol node name none := by
  obtain ⟨node, declares, title, name, _, _, _, records⟩ := exists_standsFor_of_mem_symbols member
  exact ⟨node, name, declares, records⟩

end SourceBaseline.Shell
