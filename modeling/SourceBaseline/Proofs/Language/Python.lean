import SourceBaseline.Language.Python
import SourceBaseline.Proofs.Language.Declaration
import SourceBaseline.Proofs.SyntaxTree.Places

/-!
# What is found in a Python file

A definition is found when only named classes stand around it. `symbols_exact` says that each of
these definitions has its symbol, in pre-order and with the innermost class, and each assignment of the
module to a name that is new.
-/

set_option autoImplicit false

namespace SourceBaseline.Python

variable {source : Source} {block node child : SyntaxNode} {owner : Option String} {way : Place}
  {index : Nat}

/-- A definition stands in a block by itself or decorated, at a place below the block. -/
inductive Stands (block : SyntaxNode) : Place → SyntaxNode → Prop
  | plain {index : Nat} {node : SyntaxNode} : block.Holds index node →
      node.kind = "class_definition" ∨ node.kind = "function_definition" →
      Stands block [index] node
  | decorated {index inner : Nat} {wrapper node : SyntaxNode} : block.Holds index wrapper →
      wrapper.kind = "decorated_definition" → wrapper.Fills "definition" inner node →
      Stands block [index, inner] node

/-- A named definition that stands in a block which belongs to `owner`, or in the body of a named class
that stands there, and so on; with its name and that of the innermost of these classes. -/
inductive Defines (source : Source) :
    SyntaxNode → Option String → Place → SyntaxNode → List Char → Option String → Prop
  | here {block : SyntaxNode} {owner : Option String} {place : Place} {node : SyntaxNode}
      {name : List Char} : Stands block place node →
      node.fieldText? "name" source.text = some name → Defines source block owner place node name owner
  | inside {block : SyntaxNode} {owner : Option String} {place : Place} {outer : SyntaxNode}
      {title : List Char} {index : Nat} {body : SyntaxNode} {rest : Place} {node : SyntaxNode}
      {name : List Char} {innermost : Option String} : Stands block place outer →
      outer.kind = "class_definition" → outer.fieldText? "name" source.text = some title →
      outer.Fills "body" index body →
      Defines source body (some (.ofList title)) rest node name innermost →
      Defines source block owner (place ++ index :: rest) node name innermost

/-- The symbol of a definition at a place below a block. -/
def Declares (source : Source) (block : SyntaxNode) (owner : Option String) (place : Place)
    (symbol : Symbol) : Prop :=
  ∃ node name innermost, Defines source block owner place node name innermost ∧
    source.Records symbol node name innermost

theorem Stands.exists_cons (stands : Stands block way node) :
    ∃ index child rest, block.Holds index child ∧ way = index :: rest := by
  cases stands with
  | plain holds => exact ⟨_, _, _, holds, rfl⟩
  | decorated holds => exact ⟨_, _, _, holds, rfl⟩

theorem Stands.size_lt (stands : Stands block way node) : node.size < block.size := by
  have child_lt : ∀ {index child}, block.Holds index child → child.size < block.size :=
    fun holds => SyntaxNode.size_lt_of_mem_namedChildren
      (List.mem_filter.2 ⟨List.mem_of_getElem? holds.1, holds.2⟩)
  cases stands with
  | plain holds => exact child_lt holds
  | decorated holds _ fills =>
      exact Nat.lt_trans (SyntaxNode.size_lt_of_field? (SyntaxNode.field?_of_fills fills))
        (child_lt holds)

theorem Stands.at? (stands : Stands block way node) : block.at? way = some node := by
  cases stands with
  | plain holds => exact SyntaxNode.at?_single holds.1
  | decorated holds _ fills =>
      exact SyntaxNode.at?_append (SyntaxNode.at?_single holds.1) (SyntaxNode.at?_single fills.2)

theorem Stands.through {rest : Place} (holds : block.Holds index child)
    (stands : Stands block (index :: rest) node) :
    (rest = [] ∧ node = child ∧
      (child.kind = "class_definition" ∨ child.kind = "function_definition")) ∨
    ∃ inner, rest = [inner] ∧ child.kind = "decorated_definition" ∧
      child.Fills "definition" inner node := by
  cases stands with
  | plain holdsToo kind =>
      obtain rfl := Option.some_inj.1 (holds.1.symm.trans holdsToo.1)
      exact .inl ⟨rfl, rfl, kind⟩
  | decorated holdsToo decorated fills =>
      obtain rfl := Option.some_inj.1 (holds.1.symm.trans holdsToo.1)
      exact .inr ⟨_, rfl, decorated, fills⟩

/-- No definition stands on the way to another one that stands in the same block. -/
theorem Stands.unique {other : Place} {twin : SyntaxNode} {rest more : Place}
    (stands : Stands block way node) (standsToo : Stands block other twin)
    (same : way ++ rest = other ++ more) : way = other ∧ node = twin ∧ rest = more := by
  obtain ⟨index, child, way, holds, rfl⟩ := stands.exists_cons
  obtain ⟨_, _, other, _, rfl⟩ := standsToo.exists_cons
  obtain ⟨rfl, rests⟩ := List.cons_eq_cons.1 same
  rcases stands.through holds, standsToo.through holds with
    ⟨⟨rfl, rfl, kind⟩ | ⟨_, rfl, kind, fills⟩, ⟨rfl, rfl, kindToo⟩ | ⟨_, rfl, kindToo, fillsToo⟩⟩
  · exact ⟨rfl, rfl, rests⟩
  · exact absurd (kindToo ▸ kind) (by decide)
  · exact absurd (kind ▸ kindToo) (by decide)
  · obtain ⟨rfl, rfl⟩ := fills.unique fillsToo
    exact ⟨rfl, rfl, (List.cons_eq_cons.1 rests).2⟩

theorem Defines.at? {place : Place} {name : List Char} {innermost : Option String}
    (defines : Defines source block owner place node name innermost) :
    block.at? place = some node := by
  induction defines with
  | here stands => exact stands.at?
  | inside stands _ _ fills _ ih =>
      exact SyntaxNode.at?_append stands.at? (SyntaxNode.at?_append (SyntaxNode.at?_single fills.2) ih)

theorem Defines.exists_stands {place : Place} {name : List Char} {innermost : Option String}
    (defines : Defines source block owner place node name innermost) :
    ∃ way outer rest, Stands block way outer ∧ place = way ++ rest := by
  cases defines with
  | here stands => exact ⟨_, _, [], stands, (List.append_nil _).symm⟩
  | inside stands => exact ⟨_, _, _, stands, rfl⟩

theorem defines_at_iff (stands : Stands block way node) {rest : Place} {found : SyntaxNode}
    {name : List Char} {innermost : Option String} :
    Defines source block owner (way ++ rest) found name innermost ↔
      (rest = [] ∧ found = node ∧ innermost = owner ∧
        node.fieldText? "name" source.text = some name) ∨
      ∃ title index body more, node.kind = "class_definition" ∧
        node.fieldText? "name" source.text = some title ∧ node.Fills "body" index body ∧
        rest = index :: more ∧
        Defines source body (some (.ofList title)) more found name innermost := by
  constructor
  · generalize whole : way ++ rest = place
    intro defines
    cases defines with
    | here standsToo named =>
        obtain ⟨rfl, rfl, rfl⟩ := stands.unique standsToo (whole.trans (List.append_nil _).symm)
        exact .inl ⟨rfl, rfl, rfl, named⟩
    | inside standsToo isClass titled fills defines =>
        obtain ⟨rfl, rfl, rfl⟩ := stands.unique standsToo whole
        exact .inr ⟨_, _, _, _, isClass, titled, fills, rfl, defines⟩
  · rintro (⟨rfl, rfl, rfl, named⟩ | ⟨title, index, body, more, isClass, titled, fills, rfl, defines⟩)
    · rw [List.append_nil]
      exact .here stands named
    · exact .inside stands isClass titled fills defines

/-! ## Symbols of definitions -/

theorem classSymbols_eq :
    classSymbols source owner node =
      match node.fieldText? "name" source.text with
      | none => []
      | some name => classSymbol source owner name node ::
          match node.field? "body" with
          | none => []
          | some body =>
              body.namedChildren.flatMap (definitionSymbols source (some (.ofList name))) := by
  rw [classSymbols]
  cases node.fieldText? "name" source.text with
  | none => rfl
  | some name =>
      refine congrArg (classSymbol source owner name node :: ·) ?_
      split
      next absent => rw [absent]
      next body found =>
        rw [found]
        simp [List.flatMap_subtype]

theorem definitionSymbols_of_decorated (decorated : node.kind = "decorated_definition") :
    definitionSymbols source owner node = (node.field? "definition").elim [] fun definition =>
      if definition.kind = "class_definition" then classSymbols source owner definition
      else (functionSymbol? source owner (isCommand source node) definition).toList := by
  unfold definitionSymbols
  simp only [decorated]
  split <;> simp only [*, Option.elim]

theorem exists_functionSymbol? {name : List Char}
    (named : node.fieldText? "name" source.text = some name) (owner : Option String)
    (command : Bool) : ∃ symbol, functionSymbol? source owner command node = some symbol ∧
      source.Records symbol node name owner := by
  rw [functionSymbol?, named]
  exact ⟨_, rfl, rfl, rfl, rfl, rfl, rfl⟩

theorem emits_function {command : Bool} (stands : Stands block way node)
    (other : node.kind ≠ "class_definition") :
    Emits (functionSymbol? source owner command node).toList fun rest =>
      Declares source block owner (way ++ rest) := by
  refine .option (fun symbol found => ?_) ?_
  · obtain ⟨name, named, _⟩ := Option.bind_eq_some_iff.1 found
    obtain ⟨_, foundToo, records⟩ := exists_functionSymbol? named owner command
    cases found.symm.trans foundToo
    exact ⟨node, name, owner, (defines_at_iff stands).2 (.inl ⟨rfl, rfl, rfl, named⟩), records⟩
  · rintro rest symbol ⟨found, name, innermost, defines, _⟩
    rcases (defines_at_iff stands).1 defines with ⟨rfl, _, _, named⟩ | ⟨_, _, _, _, isClass, _⟩
    · obtain ⟨_, same, _⟩ := exists_functionSymbol? named owner command
      exact ⟨rfl, same ▸ rfl⟩
    · exact absurd isClass other

theorem emits_class (stands : Stands block way node) (isClass : node.kind = "class_definition")
    (bodies : ∀ body : SyntaxNode, body.size < block.size → ∀ owner,
      Emits (body.namedChildren.flatMap (definitionSymbols source owner))
        (Declares source body owner)) :
    Emits (classSymbols source owner node) fun rest => Declares source block owner (way ++ rest) := by
  rw [classSymbols_eq]
  cases named : node.fieldText? "name" source.text with
  | none =>
      refine .nil fun rest symbol ⟨found, name, innermost, defines, _⟩ => ?_
      rcases (defines_at_iff stands).1 defines with ⟨_, _, _, found⟩ | ⟨_, _, _, _, _, found, _⟩
      · cases named.symm.trans found
      · cases named.symm.trans found
  | some title =>
      refine .cons ⟨node, title, owner, (defines_at_iff stands).2 (.inl ⟨rfl, rfl, rfl, named⟩),
        rfl, rfl, rfl, rfl, rfl⟩ ?_
      refine .field (by cases node.field? "body" <;> rfl) (fun index body fills => bodies body
        (Nat.lt_trans (SyntaxNode.size_lt_of_field? (SyntaxNode.field?_of_fills fills)) stands.size_lt)
        (some (.ofList title))) fun rest symbol => ⟨?_, ?_⟩
      · rintro ⟨inner, found, name, innermost, defines, records⟩
        rcases (defines_at_iff stands).1 defines with
          ⟨top, _⟩ | ⟨other, index, body, more, _, titled, fills, rfl, defines⟩
        · exact absurd top inner
        · obtain rfl := Option.some_inj.1 (named.symm.trans titled)
          exact ⟨index, body, more, fills, rfl, found, name, innermost, defines, records⟩
      · rintro ⟨index, body, more, fills, rfl, found, name, innermost, defines, records⟩
        exact ⟨List.cons_ne_nil _ _, found, name, innermost, (defines_at_iff stands).2
          (.inr ⟨title, index, body, more, isClass, named, fills, rfl, defines⟩), records⟩

/-- What is declared at or below a named child of a block. -/
theorem emits_child (holds : block.Holds index child)
    (bodies : ∀ body : SyntaxNode, body.size < block.size → ∀ owner,
      Emits (body.namedChildren.flatMap (definitionSymbols source owner))
        (Declares source body owner)) :
    Emits (definitionSymbols source owner child) fun rest =>
      Declares source block owner (index :: rest) := by
  -- What is declared below the child stands in it, and only definitions do, decorated or not.
  have only : ∀ rest symbol, Declares source block owner (index :: rest) symbol →
      (child.kind = "class_definition" ∨ child.kind = "function_definition") ∨
      child.kind = "decorated_definition" ∧
        ∃ inner node more, child.Fills "definition" inner node ∧ rest = inner :: more := by
    rintro rest symbol ⟨_, _, _, defines, _⟩
    obtain ⟨way, outer, more, stands, same⟩ := defines.exists_stands
    obtain ⟨_, _, way, _, rfl⟩ := stands.exists_cons
    obtain ⟨rfl, rfl⟩ := List.cons_eq_cons.1 same
    rcases stands.through holds with ⟨_, _, kind⟩ | ⟨inner, rfl, kind, fills⟩
    · exact .inl kind
    · exact .inr ⟨kind, inner, outer, more, fills, rfl⟩
  by_cases decorated : child.kind = "decorated_definition"
  · have each : ∀ inner definition, child.Fills "definition" inner definition →
        Emits (if definition.kind = "class_definition" then classSymbols source owner definition
          else (functionSymbol? source owner (isCommand source child) definition).toList)
          fun rest => Declares source block owner (index :: inner :: rest) := by
      intro inner definition fills
      have stands : Stands block [index, inner] definition := .decorated holds decorated fills
      split
      next isClass => exact emits_class stands isClass bodies
      next other => exact emits_function stands other
    refine .field (definitionSymbols_of_decorated decorated) each fun rest symbol =>
      ⟨fun declares => ?_, ?_⟩
    · rcases only rest symbol declares with kind | ⟨_, inner, node, more, fills, rfl⟩
      · exact absurd (decorated ▸ kind) (by decide)
      · exact ⟨inner, node, more, fills, rfl, declares⟩
    · rintro ⟨inner, _, more, _, rfl, declares⟩
      exact declares
  · unfold definitionSymbols
    split
    next isClass => exact emits_class (.plain holds (.inl isClass)) isClass bodies
    next kind => exact absurd kind decorated
    next isFunction =>
      exact emits_function (.plain holds (.inr isFunction)) (isFunction ▸ by decide)
    next notClass _ notFunction =>
      refine .nil fun rest symbol declares => ?_
      rcases only rest symbol declares with (kind | kind) | ⟨kind, _⟩
      · exact notClass kind
      · exact notFunction kind
      · exact decorated kind

theorem emits_block (block : SyntaxNode) (owner : Option String) :
    Emits (block.namedChildren.flatMap (definitionSymbols source owner))
      (Declares source block owner) := by
  -- On the size of the block: only the bodies of the classes in it are walked in turn.
  induction size : block.size using Nat.strongRecOn generalizing block owner with
  | ind bound ih =>
      subst size
      refine .namedChildren (fun index child holds => ?_) fun place symbol declares => ?_
      · exact emits_child holds fun body smaller owner => ih _ smaller body owner rfl
      · obtain ⟨_, _, _, defines, _⟩ := declares
        obtain ⟨_, _, more, stands, rfl⟩ := defines.exists_stands
        obtain ⟨index, child, rest, holds, rfl⟩ := stands.exists_cons
        exact ⟨index, child, rest ++ more, holds, rfl⟩

/-! ## Symbols of a module -/

/-- The first thing in a statement is an assignment to this name. -/
def AssignsTo (source : Source) (statement : SyntaxNode) (name : List Char) : Prop :=
  ∃ assignment target, statement.firstNamed? = some assignment ∧ assignment.kind = "assignment" ∧
    assignment.field? "left" = some target ∧ target.kind = "identifier" ∧
    target.text? source.text = some name

/-- A statement of the module that assigns to a name. -/
def Assigns (source : Source) (root : SyntaxNode) (place : Place) (statement : SyntaxNode)
    (name : List Char) : Prop :=
  ∃ index, place = [index] ∧ root.Holds index statement ∧
    statement.kind = "expression_statement" ∧ AssignsTo source statement name

/-- No symbol before a place that belongs to no class has this name. -/
def Fresh (emitted : List (Place × Symbol)) (place : Place) (name : List Char) : Prop :=
  ∀ earlier ∈ emitted, earlier.1 < place → earlier.2.enclosing = none →
    earlier.2.name ≠ .ofList name

theorem records_of_assignmentSymbol? {statement : SyntaxNode} {symbol : Symbol}
    (assigned : assignmentSymbol? source statement = some symbol) :
    ∃ name, AssignsTo source statement name ∧ source.Records symbol statement name none := by
  obtain ⟨assignment, first, assigned⟩ := Option.bind_eq_some_iff.1 assigned
  obtain ⟨target, left, assigned⟩ := Option.bind_eq_some_iff.1 assigned
  obtain ⟨name, text, same⟩ := Option.bind_eq_some_iff.1 assigned
  obtain ⟨first, isAssignment⟩ := Option.filter_eq_some_iff.1 first
  obtain ⟨left, isIdentifier⟩ := Option.filter_eq_some_iff.1 left
  cases same
  exact ⟨name, ⟨assignment, target, first, of_decide_eq_true isAssignment, left,
    of_decide_eq_true isIdentifier, text⟩, rfl, rfl, rfl, rfl, rfl⟩

theorem exists_assignmentSymbol? {statement : SyntaxNode} {name : List Char}
    (assigns : AssignsTo source statement name) :
    ∃ symbol, assignmentSymbol? source statement = some symbol ∧ symbol.name = .ofList name := by
  obtain ⟨assignment, target, first, isAssignment, left, isIdentifier, text⟩ := assigns
  have found : assignment.fieldOfKind? "left" "identifier" = some target :=
    Option.filter_eq_some_iff.2 ⟨left, decide_eq_true isIdentifier⟩
  refine ⟨_, Option.bind_eq_some_iff.2 ⟨assignment,
    Option.filter_eq_some_iff.2 ⟨first, decide_eq_true isAssignment⟩,
    Option.bind_eq_some_iff.2 ⟨target, found, Option.bind_eq_some_iff.2 ⟨name, text, rfl⟩⟩⟩, rfl⟩

theorem declaresAtTop_iff {found : List Symbol} {name : String} :
    declaresAtTop found name = true ↔ ∃ symbol ∈ found, symbol.name = name ∧ symbol.enclosing = none := by
  simp [declaresAtTop]

section Module

variable {root : SyntaxNode} {count : Nat} {emitted more : List (Place × Symbol)}

/-- What a symbol of a module stands for. -/
def Counts (source : Source) (root : SyntaxNode) (emitted : List (Place × Symbol)) (place : Place)
    (symbol : Symbol) : Prop :=
  Declares source root none place symbol ∨ ∃ statement name,
    Assigns source root place statement name ∧ source.Records symbol statement name none ∧
      Fresh emitted place name

/-- What has been emitted when the first `count` children of a module were walked. -/
structure Emitted (source : Source) (root : SyntaxNode) (count : Nat)
    (emitted : List (Place × Symbol)) : Prop where
  ordered : emitted.Pairwise fun earlier later => earlier.1 < later.1
  within : ∀ entry ∈ emitted, ∃ index rest, entry.1 = index :: rest ∧ index < count
  sound : ∀ entry ∈ emitted, Counts source root emitted entry.1 entry.2
  complete : ∀ index rest symbol, index < count →
    Counts source root emitted (index :: rest) symbol → ∃ other, (index :: rest, other) ∈ emitted

theorem fresh_append_iff {place : Place} {name : List Char}
    (later : ∀ entry ∈ more, ¬ entry.1 < place) :
    Fresh (emitted ++ more) place name ↔ Fresh emitted place name := by
  refine ⟨fun fresh earlier member => fresh earlier (List.mem_append_left _ member), ?_⟩
  intro fresh earlier member before
  rcases List.mem_append.1 member with old | new
  · exact fresh earlier old before
  · exact absurd before (later earlier new)

theorem counts_append_iff (within : ∀ entry ∈ more, ∃ rest, entry.1 = count :: rest) {index : Nat}
    {rest : Place} {symbol : Symbol} (bound : index ≤ count) :
    Counts source root (emitted ++ more) (index :: rest) symbol ↔
      Counts source root emitted (index :: rest) symbol := by
  refine or_congr_right (exists_congr fun statement => exists_congr fun name =>
    and_congr_right fun assigns => and_congr_right fun _ => fresh_append_iff ?_)
  obtain ⟨_, same, _⟩ := assigns
  cases same
  intro entry member before
  obtain ⟨below, here⟩ := within entry member
  rw [here] at before
  rcases List.cons_lt_cons_iff.1 before with less | ⟨_, less⟩
  · exact Nat.not_lt.2 bound less
  · exact List.not_lt_nil _ less

/-- What is emitted for the next child stands after all the rest and does not change what counts. -/
theorem Emitted.extend (before : Emitted source root count emitted)
    (ordered : more.Pairwise fun earlier later => earlier.1 < later.1)
    (within : ∀ entry ∈ more, ∃ rest, entry.1 = count :: rest)
    (sound : ∀ entry ∈ more, Counts source root emitted entry.1 entry.2)
    (complete : ∀ rest symbol, Counts source root emitted (count :: rest) symbol →
      ∃ other, (count :: rest, other) ∈ more) :
    Emitted source root (count + 1) (emitted ++ more) := by
  constructor
  · refine List.pairwise_append.2 ⟨before.ordered, ordered, fun earlier member later memberToo => ?_⟩
    obtain ⟨index, rest, here, less⟩ := before.within earlier member
    obtain ⟨below, hereToo⟩ := within later memberToo
    rw [here, hereToo]
    exact List.cons_lt_cons_iff.2 (.inl less)
  · intro entry member
    rcases List.mem_append.1 member with old | new
    · obtain ⟨index, rest, here, less⟩ := before.within entry old
      exact ⟨index, rest, here, Nat.lt_succ_of_lt less⟩
    · obtain ⟨rest, here⟩ := within entry new
      exact ⟨count, rest, here, Nat.lt_succ_self count⟩
  · intro entry member
    rcases List.mem_append.1 member with old | new
    · obtain ⟨index, rest, here, less⟩ := before.within entry old
      have counts := before.sound entry old
      rw [here] at counts ⊢
      exact (counts_append_iff within (Nat.le_of_lt less)).2 counts
    · obtain ⟨rest, here⟩ := within entry new
      have counts := sound entry new
      rw [here] at counts ⊢
      exact (counts_append_iff within (Nat.le_refl count)).2 counts
  · intro index rest symbol less counts
    have counts := (counts_append_iff within (Nat.le_of_lt_succ less)).1 counts
    rcases Nat.lt_succ_iff_lt_or_eq.1 less with less | rfl
    · obtain ⟨other, member⟩ := before.complete index rest symbol less counts
      exact ⟨other, List.mem_append_left _ member⟩
    · obtain ⟨other, member⟩ := complete rest symbol counts
      exact ⟨other, List.mem_append_right _ member⟩

theorem Emitted.skip (before : Emitted source root count emitted)
    (none : ∀ rest symbol, ¬ Counts source root emitted (count :: rest) symbol) :
    Emitted source root (count + 1) emitted := by
  have extended := before.extend .nil nofun nofun fun rest symbol counts =>
    (none rest symbol counts).elim
  rwa [List.append_nil] at extended

/-- What counts at or below a child of a module is declared there, or the child assigns to a name. -/
theorem Counts.through {rest : Place} {symbol : Symbol} (stands : root.children[count]? = some child)
    (counts : Counts source root emitted (count :: rest) symbol) :
    root.Holds count child ∧ (Declares source root none (count :: rest) symbol ∨
      rest = [] ∧ child.kind = "expression_statement" ∧ ∃ name, AssignsTo source child name ∧
        source.Records symbol child name none ∧ Fresh emitted [count] name) := by
  rcases counts with declares | ⟨statement, name, ⟨_, ⟨⟩, holds, kind, assigns⟩, records, fresh⟩
  · obtain ⟨_, _, _, defines, _⟩ := id declares
    obtain ⟨_, _, _, stood, same⟩ := defines.exists_stands
    obtain ⟨_, other, _, holds, rfl⟩ := stood.exists_cons
    obtain ⟨rfl, rfl⟩ := List.cons_eq_cons.1 same
    obtain rfl := Option.some_inj.1 (stands.symm.trans holds.1)
    exact ⟨holds, .inl declares⟩
  · obtain rfl := Option.some_inj.1 (stands.symm.trans holds.1)
    exact ⟨holds, .inr ⟨rfl, kind, name, assigns, records, fresh⟩⟩

theorem not_declares_of_statement {rest : Place} {symbol : Symbol} (holds : root.Holds count child)
    (statement : child.kind = "expression_statement") :
    ¬ Declares source root owner (count :: rest) symbol := by
  rintro ⟨_, _, _, defines, _⟩
  obtain ⟨_, _, _, stood, same⟩ := defines.exists_stands
  obtain ⟨_, _, way, _, rfl⟩ := stood.exists_cons
  obtain ⟨rfl, rfl⟩ := List.cons_eq_cons.1 same
  rcases stood.through holds with ⟨_, _, kind⟩ | ⟨_, _, kind, _⟩
  · exact absurd (statement ▸ kind) (by decide)
  · exact absurd (statement ▸ kind) (by decide)

theorem Emitted.fresh_iff (before : Emitted source root count emitted) {name : List Char} :
    Fresh emitted [count] name ↔ ¬ declaresAtTop (emitted.map Prod.snd) (.ofList name) := by
  rw [declaresAtTop_iff]
  constructor
  · rintro fresh ⟨symbol, member, same, top⟩
    obtain ⟨entry, inside, rfl⟩ := List.mem_map.1 member
    obtain ⟨index, rest, here, less⟩ := before.within entry inside
    exact fresh entry inside (here ▸ List.cons_lt_cons_iff.2 (.inl less)) top same
  · exact fun absent entry member _ top same =>
      absent ⟨entry.2, List.mem_map.2 ⟨entry, member, rfl⟩, same, top⟩

/-- A statement adds the symbol of its assignment where the name is new. -/
theorem Emitted.statement (before : Emitted source root count emitted)
    (holds : root.Holds count child) (kind : child.kind = "expression_statement") :
    ∃ later, Emitted source root (count + 1) later ∧
      later.map Prod.snd = addStatement source (emitted.map Prod.snd) child := by
  have assigned : ∀ rest symbol, Counts source root emitted (count :: rest) symbol →
      rest = [] ∧ ∃ name, AssignsTo source child name ∧ Fresh emitted [count] name := by
    intro rest symbol counts
    rcases (counts.through holds.1).2 with declares | ⟨top, _, name, assigns, _, fresh⟩
    · exact (not_declares_of_statement holds kind declares).elim
    · exact ⟨top, name, assigns, fresh⟩
  rw [addStatement, if_pos kind]
  cases found : assignmentSymbol? source child with
  -- Without a symbol nothing counts at the statement.
  | none =>
      refine ⟨emitted, before.skip fun rest symbol counts => ?_, rfl⟩
      obtain ⟨_, name, assigns, _⟩ := assigned rest symbol counts
      obtain ⟨_, foundToo, _⟩ := exists_assignmentSymbol? assigns
      cases found.symm.trans foundToo
  | some symbol =>
      obtain ⟨name, assigns, records⟩ := records_of_assignmentSymbol? found
      dsimp only
      rw [records.name]
      split
      -- A symbol of that name stands at the top already, so the assignment is not fresh.
      next declared =>
        refine ⟨emitted, before.skip fun rest other counts => ?_, rfl⟩
        obtain ⟨_, twin, assignsToo, fresh⟩ := assigned rest other counts
        obtain ⟨_, foundToo, sameName⟩ := exists_assignmentSymbol? assignsToo
        obtain rfl := Option.some_inj.1 (found.symm.trans foundToo)
        rw [← records.name, sameName] at declared
        exact before.fresh_iff.1 fresh declared
      next undeclared =>
        refine ⟨emitted ++ [([count], symbol)], before.extend (List.pairwise_singleton _ _) ?_ ?_ ?_,
          List.map_append⟩
        · exact List.forall_mem_singleton.2 ⟨[], rfl⟩
        · exact List.forall_mem_singleton.2 (.inr ⟨child, name, ⟨count, rfl, holds, kind, assigns⟩,
            records, before.fresh_iff.2 undeclared⟩)
        · intro rest other counts
          obtain ⟨rfl, _⟩ := assigned rest other counts
          exact ⟨symbol, .head _⟩

/-- Any other child adds the definitions at and below it. -/
theorem Emitted.definitions (before : Emitted source root count emitted)
    (holds : root.Holds count child) (other : child.kind ≠ "expression_statement") :
    ∃ later, Emitted source root (count + 1) later ∧
      later.map Prod.snd = addStatement source (emitted.map Prod.snd) child := by
  have emits : Emits (definitionSymbols source none child) fun rest =>
      Declares source root none (count :: rest) :=
    emits_child holds fun body _ owner => emits_block body owner
  obtain ⟨placed, same, ordered, sound, complete⟩ := emits
  refine ⟨emitted ++ placed.map fun entry => (count :: entry.1, entry.2),
    before.extend ?_ ?_ ?_ ?_, ?_⟩
  · exact List.pairwise_map.2 (ordered.imp fun less => List.cons_lt_cons_iff.2 (.inr ⟨rfl, less⟩))
  · exact List.forall_mem_map.2 fun entry _ => ⟨entry.1, rfl⟩
  · exact List.forall_mem_map.2 fun entry member => .inl (sound entry member)
  · intro rest symbol counts
    rcases (counts.through holds.1).2 with declares | ⟨_, kind, _⟩
    · obtain ⟨found, member⟩ := complete rest symbol declares
      exact ⟨found, List.mem_map.2 ⟨_, member, rfl⟩⟩
    · exact absurd kind other
  · rw [addStatement, if_neg other, same, List.map_append, List.map_map]
    rfl

/-- The next child adds what `addStatement` adds for it, and nothing if it is not named. -/
theorem Emitted.step (before : Emitted source root count emitted)
    (stands : root.children[count]? = some child) :
    ∃ later, Emitted source root (count + 1) later ∧ later.map Prod.snd =
      if child.named then addStatement source (emitted.map Prod.snd) child
      else emitted.map Prod.snd := by
  by_cases named : child.named = true
  · rw [if_pos named]
    by_cases kind : child.kind = "expression_statement"
    · exact before.statement ⟨stands, named⟩ kind
    · exact before.definitions ⟨stands, named⟩ kind
  · rw [if_neg named]
    exact ⟨emitted, before.skip fun _ _ counts => named (counts.through stands).1.2, rfl⟩

/-- Walking the children of a module one after the other keeps what counts. -/
theorem Emitted.children (before : Emitted source root count emitted) (rest : List SyntaxNode)
    (stand : ∀ index, rest[index]? = root.children[count + index]?) :
    ∃ later, Emitted source root (count + rest.length) later ∧ later.map Prod.snd =
      (rest.filter SyntaxNode.named).foldl (addStatement source) (emitted.map Prod.snd) := by
  induction rest generalizing count emitted with
  | nil => exact ⟨emitted, before, rfl⟩
  | cons child rest ih =>
      obtain ⟨next, walked, same⟩ := before.step (stand 0).symm
      obtain ⟨later, walkedToo, sameToo⟩ := ih walked fun index => by
        rw [Nat.add_assoc, Nat.add_comm 1]
        exact stand (index + 1)
      refine ⟨later, ?_, ?_⟩
      · rw [List.length_cons, Nat.add_comm rest.length, ← Nat.add_assoc]
        exact walkedToo
      · rw [sameToo, same, List.filter_cons]
        split <;> rfl

end Module

/-- The symbols of a Python file: each definition that is reached through named classes only has one,
and so has each assignment of the module to a name that no symbol before it has outside the classes.
They stand in pre-order, and nothing else has a symbol. -/
theorem symbols_exact (source : Source) (root : SyntaxNode) :
    ∃ emitted : List (Place × Symbol), symbols source root = emitted.map Prod.snd ∧
      emitted.Pairwise (fun earlier later => earlier.1 < later.1) ∧
      (∀ place, (∃ symbol, (place, symbol) ∈ emitted) ↔
        (∃ node name owner, Defines source root none place node name owner) ∨
        ∃ statement name, Assigns source root place statement name ∧ Fresh emitted place name) ∧
      ∀ entry ∈ emitted, ∃ node name owner, root.at? entry.1 = some node ∧
        source.Records entry.2 node name owner ∧
        (Defines source root none entry.1 node name owner ∨
          owner = none ∧ Assigns source root entry.1 node name) := by
  have start : Emitted source root 0 [] := ⟨.nil, nofun, nofun, nofun⟩
  obtain ⟨emitted, walked, same⟩ := start.children root.children fun index => by rw [Nat.zero_add]
  rw [Nat.zero_add] at walked
  have inside : ∀ index child, root.Holds index child → index < root.children.length :=
    fun index child holds => (List.getElem?_eq_some_iff.1 holds.1).1
  refine ⟨emitted, same.symm, walked.ordered, fun place => ⟨?_, ?_⟩, fun entry member => ?_⟩
  · rintro ⟨symbol, member⟩
    rcases walked.sound _ member with
      ⟨node, name, owner, defines, _⟩ | ⟨statement, name, assigns, _, fresh⟩
    · exact .inl ⟨node, name, owner, defines⟩
    · exact .inr ⟨statement, name, assigns, fresh⟩
  · rintro (⟨node, name, owner, defines⟩ | ⟨statement, name, assigns, fresh⟩)
    · obtain ⟨symbol, records⟩ := source.exists_records node name owner
      obtain ⟨_, _, _, stands, rfl⟩ := defines.exists_stands
      obtain ⟨index, child, _, holds, rfl⟩ := stands.exists_cons
      exact walked.complete index _ symbol (inside index child holds)
        (.inl ⟨node, name, owner, defines, records⟩)
    · obtain ⟨symbol, records⟩ := source.exists_records statement name none
      obtain ⟨index, rfl, holds, _⟩ := id assigns
      exact walked.complete index [] symbol (inside index statement holds)
        (.inr ⟨statement, name, assigns, records, fresh⟩)
  · rcases walked.sound entry member with
      ⟨node, name, owner, defines, records⟩ | ⟨statement, name, assigns, records, _⟩
    · exact ⟨node, name, owner, defines.at?, records, .inl defines⟩
    · obtain ⟨index, here, holds, _⟩ := id assigns
      exact ⟨statement, name, none, here ▸ SyntaxNode.at?_single holds.1, records,
        .inr ⟨rfl, assigns⟩⟩

end SourceBaseline.Python
