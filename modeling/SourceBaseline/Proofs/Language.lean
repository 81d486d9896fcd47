import SourceBaseline.Language
import SourceBaseline.Proofs.Language.Markdown
import SourceBaseline.Proofs.Language.Naming
import SourceBaseline.Proofs.Language.Python
import SourceBaseline.Proofs.Language.Rust
import SourceBaseline.Proofs.SyntaxTree.Preorder

/-!
# Symbols of one file

Every symbol of a file stands for a declaration in one of its syntax trees, in the file and where that
declaration starts. `named_by_title` says from what its name is read, and when it is empty.
-/

set_option autoImplicit false

namespace SourceBaseline

variable {source : Source} {root : SyntaxNode}

/-! ## Go -/

namespace Go

variable {cursor declaration : SyntaxCursor} {symbol : Symbol}

theorem represents_of_functionSymbol? {receiver : Option (List Char)}
    (found : functionSymbol? source cursor receiver = some symbol) :
    source.Represents cursor.node symbol := by
  obtain ⟨name, named, same⟩ := Option.bind_eq_some_iff.1 found
  cases same
  exact Source.represents_of_fieldText? named ⟨rfl, rfl, rfl, rfl, rfl⟩

theorem exists_has_of_mem_specsOn {kind : String} {stack : List SyntaxNode} {spec : SyntaxCursor}
    (member : spec ∈ specsOn kind stack) : ∃ node ∈ stack, node.Has spec.node := by
  fun_induction specsOn kind stack with
  | case1 => cases member
  | case2 node stack ih =>
      rcases List.mem_append.1 member with here | later
      · exact ⟨node, .head _, SyntaxNode.has_of_mem_namedCursors (List.mem_filter.1 here).1⟩
      · obtain ⟨outer, inside, has⟩ := ih later
        rcases List.mem_append.1 inside with list | stacked
        · have child := (List.mem_filter.1 (List.mem_reverse.1 list)).1
          exact ⟨node, .head _, (SyntaxNode.has_of_mem_namedChildren child).trans has⟩
        · exact ⟨outer, .tail _ stacked, has⟩

theorem has_of_mem_specs {kind : String} {spec : SyntaxCursor} (member : spec ∈ specs kind root) :
    root.Has spec.node := by
  obtain ⟨node, stacked, has⟩ := exists_has_of_mem_specsOn (List.mem_mergeSort.1 member)
  cases List.mem_singleton.1 stacked
  exact has

theorem represents_specDeclaration {specKind : String} {kind : SymbolKind} :
    source.RepresentsAll declaration.node (specDeclaration source specKind kind declaration) := by
  refine .flatMap fun spec member => ?_
  refine .within (.filterMap fun title inside symbol found => ?_) (has_of_mem_specs member)
  obtain ⟨name, named, rfl⟩ := Option.map_eq_some_iff.1 found
  obtain ⟨child, fills⟩ := List.mem_filter.1 inside
  have titled : spec.node.HasTitle (.text title) := .name child (of_decide_eq_true fills)
  exact (Source.standsFor_of_node titled named ⟨rfl, rfl, rfl, rfl, rfl⟩).represents

theorem represents_interfaceMethods {owner : List Char} {type : SyntaxNode} :
    source.RepresentsAll type (interfaceMethods source owner type) := by
  refine .filterMap fun member inside symbol found => ?_
  split at found
  next =>
    obtain ⟨name, named, rfl⟩ := Option.map_eq_some_iff.1 found
    exact (Source.represents_of_fieldText? named ⟨rfl, rfl, rfl, rfl, rfl⟩).within
      (SyntaxNode.has_of_mem_namedCursors inside)
  next => cases found

theorem represents_typeSymbols {spec : SyntaxCursor} :
    source.RepresentsAll spec.node (typeSymbols source declaration spec) := by
  unfold typeSymbols
  split
  next =>
    split
    next name type named typed =>
      obtain ⟨kind, signature⟩ := typeShape source name spec.node type
      refine .cons (Source.represents_of_fieldText? named ⟨rfl, rfl, rfl, rfl, rfl⟩) ?_
      split
      · exact represents_interfaceMethods.within (SyntaxNode.has_of_field? typed)
      · exact .nil
    next => exact .nil
  next => exact .nil

theorem represents_symbols : source.RepresentsAll root (symbols source root) := by
  refine .flatMap fun declaration member => ?_
  refine .within ?_ (SyntaxNode.has_of_mem_namedCursors member)
  unfold declarationSymbols
  split
  · exact represents_specDeclaration
  · exact .toList fun _ => represents_of_functionSymbol?
  · exact .toList fun _ => represents_of_functionSymbol?
  · exact .flatMap fun spec inside =>
      represents_typeSymbols.within (SyntaxNode.has_of_mem_namedCursors inside)
  · exact represents_specDeclaration
  · exact .nil

end Go

/-! ## Shell -/

theorem Shell.represents_symbols : source.RepresentsAll root (symbols source root) := by
  intro symbol member
  obtain ⟨node, declares, stands⟩ := exists_standsFor_of_mem_symbols member
  exact ⟨node, none, declares.has, stands⟩

/-! ## Python -/

namespace Python

theorem Defines.named {block node : SyntaxNode} {owner innermost : Option String} {place : Place}
    {name : List Char} (defines : Defines source block owner place node name innermost) :
    node.fieldText? "name" source.text = some name := by
  induction defines with
  | here _ named => exact named
  | inside _ _ _ _ _ ih => exact ih

theorem represents_symbols : source.RepresentsAll root (symbols source root) := by
  have start : Emitted source root 0 [] := ⟨.nil, nofun, nofun, nofun⟩
  obtain ⟨emitted, walked, same⟩ := start.children root.children fun index => by rw [Nat.zero_add]
  intro symbol member
  have member : symbol ∈ emitted.map Prod.snd := same ▸ member
  obtain ⟨entry, inside, rfl⟩ := List.mem_map.1 member
  rcases walked.sound entry inside with
    ⟨node, name, owner, defines, records⟩ | ⟨statement, name, assigns, records, _⟩
  · exact (Source.represents_of_fieldText? defines.named records).within ⟨_, defines.at?⟩
  · obtain ⟨index, _, holds, _, assignment, target, first, isAssignment, left, isIdentifier, read⟩ :=
      assigns
    have titled : statement.HasTitle (.text target) := .target first isAssignment left isIdentifier
    exact (Source.standsFor_of_node titled read records).represents.within
      (SyntaxNode.has_of_mem_children (List.mem_of_getElem? holds.1))

end Python

/-! ## Rust -/

namespace Rust

theorem Defines.named {container node : SyntaxNode} {place : Place} {name : List Char}
    {owner : Option String} (defines : Defines source container place node name owner) :
    node.fieldText? "name" source.text = some name := by
  induction defines with
  | item item =>
      obtain ⟨_, _, _, _, named⟩ := item
      exact named
  | member _ _ _ member =>
      obtain ⟨_, _, _, _, named⟩ := member
      exact named
  | inside _ _ _ _ ih => exact ih

theorem represents_symbols : source.RepresentsAll root (symbols source root) := by
  have emits : Emits (symbols source root) (Declares source root) := emits_container root
  obtain ⟨emitted, same, _, sound, _⟩ := emits
  intro symbol member
  obtain ⟨entry, inside, rfl⟩ := List.mem_map.1 (same ▸ member)
  obtain ⟨node, name, owner, defines, records⟩ := sound entry inside
  exact (Source.represents_of_fieldText? defines.named records).within ⟨_, defines.at?⟩

end Rust

/-! ## TypeScript and JavaScript -/

namespace TypeScript

variable {symbol : Symbol}

theorem represents_memberSymbols {owner : String} {body : SyntaxNode} :
    source.RepresentsAll body (memberSymbols source owner body) := by
  refine .filterMap fun member inside symbol found => ?_
  split at found
  next =>
    obtain ⟨name, named, rfl⟩ := Option.map_eq_some_iff.1 found
    exact (Source.represents_of_fieldText? named ⟨rfl, rfl, rfl, rfl, rfl⟩).within
      (SyntaxNode.has_of_mem_namedCursors inside)
  next => cases found

theorem represents_of_declared? {constant : Bool} {doc : Option String} {declarator : SyntaxNode}
    (found : declared? source constant doc declarator = some symbol) :
    source.Represents declarator symbol := by
  unfold declared? at found
  by_cases other : declarator.kind ≠ "variable_declarator"
  · simp only [if_pos other] at found
    cases found
  · simp only [if_neg other] at found
    split at found
    all_goals
      obtain ⟨target, titled, found⟩ := Option.bind_eq_some_iff.1 found
      obtain ⟨name, read, found⟩ := Option.bind_eq_some_iff.1 found
      have titled := SyntaxNode.hasTitle_of_field? (Option.filter_eq_some_iff.1 titled).1
      cases found
      exact (Source.standsFor_of_node titled read ⟨rfl, rfl, rfl, rfl, rfl⟩).represents

theorem represents_declarationSymbols {node : SyntaxNode} {anchor : SyntaxCursor} :
    source.RepresentsAll node (declarationSymbols source node anchor) := by
  unfold declarationSymbols
  split
  next =>
    refine .filterMap fun declarator inside symbol found => ?_
    exact (represents_of_declared? found).within (SyntaxNode.has_of_mem_namedChildren inside)
  next =>
    unfold namedSymbols
    split
    next named =>
      refine .cons (Source.represents_of_fieldText? named ⟨rfl, rfl, rfl, rfl, rfl⟩) ?_
      split
      next body found =>
        have has : node.Has body := by
          split at found
          · cases found
          · exact SyntaxNode.has_of_field? found
        split
        · exact represents_memberSymbols.within has
        · exact .nil
      next => exact .nil
    next => exact .nil

theorem represents_statementSymbols {statement : SyntaxCursor} :
    source.RepresentsAll statement.node (statementSymbols source statement) := by
  unfold statementSymbols
  split
  next =>
    split
    next declaration found =>
      exact represents_declarationSymbols.within (SyntaxNode.has_of_field? found)
    next => exact .nil
  next => exact represents_declarationSymbols

theorem represents_of_registration? {call : SyntaxNode}
    (found : registration? source call = some symbol) : source.Represents call symbol := by
  unfold registration? at found
  by_cases other : call.kind ≠ "call_expression"
  · simp only [if_pos other] at found
    cases found
  simp only [if_neg other] at found
  obtain ⟨method, _, found⟩ := Option.bind_eq_some_iff.1 found
  by_cases unknown : method ≠ "registerCommand".toList ∧ method ≠ "registerTextEditorCommand".toList
  · simp only [if_pos unknown] at found
    cases found
  simp only [if_neg unknown] at found
  obtain ⟨arguments, passed, found⟩ := Option.bind_eq_some_iff.1 found
  obtain ⟨first, literal, found⟩ := Option.bind_eq_some_iff.1 found
  obtain ⟨text, read, found⟩ := Option.bind_eq_some_iff.1 found
  obtain ⟨stands, isString⟩ := Option.filter_eq_some_iff.1 literal
  split at found
  next => cases found
  next id nonempty =>
    cases found
    have named : (Title.content first).name? source.text = some (Source.unquote text) :=
      Option.map_eq_some_iff.2 ⟨text, read, rfl⟩
    exact ⟨call, none, .refl _, .content first, _,
      .literal (Decidable.not_not.1 other) passed stands (of_decide_eq_true isString), named,
      ⟨nonempty, False.elim⟩, rfl, rfl, rfl, rfl, rfl⟩

theorem firstRegistrations_subset (symbols : List Symbol) : firstRegistrations symbols ⊆ symbols := by
  induction symbols with
  | nil => exact List.Subset.refl []
  | cons symbol rest ih =>
      exact List.cons_subset_cons _ fun other member => ih (List.mem_filter.1 member).1

theorem represents_registrations : source.RepresentsAll root (registrations source root) := by
  refine .of_subset (.filterMap fun call member symbol found => ?_) (firstRegistrations_subset _)
  obtain ⟨placed, listed, _, exact⟩ := SyntaxNode.lists_visit (fun _ => true) root
  obtain ⟨entry, inside, rfl⟩ := List.mem_map.1 (listed ▸ member)
  have passes := (exact entry.1 entry.2).1 inside
  exact (represents_of_registration? found).within ⟨_, passes.at?⟩

theorem represents_symbols : source.RepresentsAll root (symbols source root) := by
  refine .append (.flatMap fun statement member => ?_) represents_registrations
  exact represents_statementSymbols.within (SyntaxNode.has_of_mem_namedCursors member)

end TypeScript

/-! ## All languages -/

/-- A text in which declarations are looked for, its syntax tree, and the row of the file on which it
starts. -/
structure Script where
  text : List Char
  tree : SyntaxNode
  row : Nat

/-- A symbol stands for a declaration in a script of a file. -/
structure Script.Places (script : Script) (file : String) (declaration : SyntaxNode) (symbol : Symbol) :
    Prop where
  has : script.tree.Has declaration
  file : symbol.file = file
  line : symbol.line = Source.cappedCount (script.row + (declaration.startRow script.text + 1))
  column : symbol.column = Source.cappedCount (Text.columnAt declaration.start script.text)

theorem cappedSum_zero (count : UInt32) : Markdown.cappedSum count (Source.cappedCount 0) = count := by
  rw [Markdown.cappedSum, ← UInt32.toNat_inj, Source.toNat_cappedCount, Source.toNat_cappedCount]
  have bound := count.toNat_lt_size
  omega

namespace Language

variable {language : Language} {grammar : Grammar} {symbol : Symbol}

/-- The texts that are read: the file itself or, of a Markdown file, what stands in its shell blocks. -/
def scripts (language : Language) (grammar : Grammar) (source : Source) : List Script :=
  match language with
  | .markdown =>
      (Markdown.fencedBlocks (grammar .markdown source.text)).filterMap fun block =>
        (Markdown.shellContent? source.text block).map fun (content, row) =>
          ⟨content, grammar .shell content, row⟩
  | other => [⟨source.text, grammar other source.text, 0⟩]

/-- A symbol is one of a script, moved down to where the script starts in the file. -/
def Moves (grammar : Grammar) (source : Source) (language : Language) (symbol : Symbol) : Prop :=
  ∃ script ∈ language.scripts grammar source, ∃ found,
    Source.Represents ⟨source.file, script.text⟩ script.tree found ∧
      symbol = { found with line := Markdown.cappedSum found.line (Source.cappedCount script.row) }

theorem moves_of_represents (plain : language ≠ .markdown)
    (represents : source.Represents (grammar language source.text) symbol) :
    Moves grammar source language symbol := by
  have whole : ⟨source.text, grammar language source.text, 0⟩ ∈ language.scripts grammar source := by
    cases language with
    | markdown => exact absurd rfl plain
    | _ => exact .head _
  exact ⟨_, whole, symbol, represents, by rw [cappedSum_zero]⟩

theorem moves_of_mem_symbols (member : symbol ∈ language.symbols grammar source) :
    Moves grammar source language symbol := by
  cases language with
  | go => exact moves_of_represents nofun (Go.represents_symbols symbol member)
  | markdown =>
      obtain ⟨block, stands, member⟩ := List.mem_flatMap.1 member
      unfold Markdown.blockSymbols at member
      split at member
      next => cases member
      next content row read =>
        obtain ⟨found, inside, rfl⟩ := List.mem_map.1 member
        refine ⟨⟨content, grammar .shell content, row⟩, ?_, found, Shell.represents_symbols found inside, rfl⟩
        exact List.mem_filterMap.2 ⟨block, stands, Option.map_eq_some_iff.2 ⟨_, read, rfl⟩⟩
  | python => exact moves_of_represents nofun (Python.represents_symbols symbol member)
  | rust => exact moves_of_represents nofun (Rust.represents_symbols symbol member)
  | shell => exact moves_of_represents nofun (Shell.represents_symbols symbol member)
  | tsx => exact moves_of_represents nofun (TypeScript.represents_symbols symbol member)
  | typescript => exact moves_of_represents nofun (TypeScript.represents_symbols symbol member)

/-- Whatever the language and the syntax tree, all symbols stand in the file of the source. -/
theorem file_of_mem_symbols (member : symbol ∈ language.symbols grammar source) :
    symbol.file = source.file := by
  obtain ⟨script, _, found, represents, rfl⟩ := moves_of_mem_symbols member
  obtain ⟨declaration, owner, _, title, name, _, _, _, records⟩ := represents
  exact records.file

/-- Every symbol stands for a declaration in the file, where the declaration starts, and has the name that the
title of the declaration gives. It has no name just if the title is blank: if the node of the name has no
width, or if only blanks stand before the first `=` of an alias. -/
theorem named_by_title (language : Language) (grammar : Grammar) (source : Source) (symbol : Symbol)
    (emitted : symbol ∈ language.symbols grammar source) :
    ∃ script ∈ language.scripts grammar source, ∃ declaration title,
      script.Places source.file declaration symbol ∧ declaration.HasTitle title ∧
        title.name? script.text = some symbol.name.toList ∧
        (symbol.name = "" ↔ title.IsBlank script.text) := by
  obtain ⟨script, read, found, represents, rfl⟩ := moves_of_mem_symbols emitted
  obtain ⟨declaration, owner, has, title, name, titled, named, blank, records⟩ := represents
  have written : found.name.toList = name := records.name ▸ String.toList_ofList
  refine ⟨script, read, declaration, title, ⟨has, records.file, ?_, records.column⟩, titled,
    written ▸ named, ?_⟩
  · dsimp only
    rw [records.line, Markdown.cappedSum_cappedCount, Nat.add_comm]
  · rw [← blank, ← written, String.toList_eq_nil_iff]

end Language

/-- An alias for which nothing stands before its `=`. -/
def namelessAlias : Source :=
  ⟨"a.sh", "alias =z\n".toList⟩

def namelessAliasTree : SyntaxNode :=
  ⟨"program", true, none, 0, 9, [⟨"command", true, none, 0, 8, [
    ⟨"command_name", true, some "name", 0, 5, [⟨"word", true, none, 0, 5, []⟩]⟩,
    ⟨"word", true, some "argument", 6, 8, []⟩]⟩]⟩

def namelessSymbol : Symbol where
  column := 0
  doc := none
  enclosing := none
  file := "a.sh"
  kind := .commandRegistration
  line := 1
  name := ""
  signature := some "alias =z"

theorem symbols_namelessAlias :
    Language.shell.symbols (fun _ _ => namelessAliasTree) namelessAlias = [namelessSymbol] := by
  decide +kernel

theorem named_by_title_nameless :
    namelessSymbol ∈ Language.shell.symbols (fun _ _ => namelessAliasTree) namelessAlias ∧
      ∃ script ∈ Language.shell.scripts (fun _ _ => namelessAliasTree) namelessAlias,
        ∃ declaration title, script.Places "a.sh" declaration namelessSymbol ∧
          declaration.HasTitle title ∧ title.name? script.text = some namelessSymbol.name.toList ∧
          (namelessSymbol.name = "" ↔ title.IsBlank script.text) := by
  have emitted : namelessSymbol ∈
      Language.shell.symbols (fun _ _ => namelessAliasTree) namelessAlias :=
    symbols_namelessAlias ▸ .head _
  exact ⟨emitted, Language.named_by_title .shell (fun _ _ => namelessAliasTree) namelessAlias
    namelessSymbol emitted⟩

/-- An alias has a symbol without a name. -/
theorem alias_emitted_without_name :
    Language.shell.symbols (fun _ _ => namelessAliasTree) namelessAlias = [namelessSymbol] ∧
      namelessSymbol.name = "" :=
  ⟨symbols_namelessAlias, rfl⟩

end SourceBaseline
