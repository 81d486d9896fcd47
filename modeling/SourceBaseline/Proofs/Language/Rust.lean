import Mathlib.Data.List.Basic
import SourceBaseline.Language.Rust
import SourceBaseline.Proofs.Language.Declaration
import SourceBaseline.Proofs.SyntaxTree.Places

/-!
# What is found in a Rust file

An item is found when only inline modules stand around it, and a member when it stands directly in an
implementation or a trait that is reached in the same way. `items_exact` says that these have their
symbols, in pre-order, and that nothing else has one.
-/

set_option autoImplicit false

namespace SourceBaseline.Rust

variable {source : Source} {container child node body : SyntaxNode} {cursor : SyntaxCursor}
  {owner : Option String} {index : Nat} {rest : Place} {name : List Char} {symbol : Symbol}

def itemKinds : List String :=
  ["const_item", "static_item", "enum_item", "function_item", "function_signature_item", "struct_item",
    "union_item", "trait_item", "type_item"]

def memberKinds : List String :=
  ["const_item", "function_item", "function_signature_item", "type_item"]

/-- What the members in the body of a node belong to: the type of an implementation, or a trait. -/
inductive Owns (source : Source) (node : SyntaxNode) : String → Prop
  | implementation {type : List Char} : node.kind = "impl_item" →
      node.fieldText? "type" source.text = some type → Owns source node (baseTypeName type)
  | trait {name : List Char} : node.kind = "trait_item" →
      node.fieldText? "name" source.text = some name → Owns source node (.ofList name)

/-- A named node of some kinds in a body, at its place. -/
def Member (source : Source) (kinds : List String) (body : SyntaxNode) (place : Place)
    (node : SyntaxNode) (name : List Char) : Prop :=
  ∃ index, place = [index] ∧ body.Holds index node ∧ node.kind ∈ kinds ∧
    node.fieldText? "name" source.text = some name

/-- The items of a container, the members of its implementations and traits, and what is defined in the
bodies of its modules. -/
inductive Defines (source : Source) :
    SyntaxNode → Place → SyntaxNode → List Char → Option String → Prop
  | item {container : SyntaxNode} {place : Place} {node : SyntaxNode} {name : List Char} :
      Member source itemKinds container place node name → Defines source container place node name none
  | member {container outer body : SyntaxNode} {index way : Nat} {title : String} {place : Place}
      {node : SyntaxNode} {name : List Char} : container.Holds index outer → Owns source outer title →
      outer.Fills "body" way body → Member source memberKinds body place node name →
      Defines source container (index :: way :: place) node name (some title)
  | inside {container outer body : SyntaxNode} {index way : Nat} {place : Place} {node : SyntaxNode}
      {name : List Char} {owner : Option String} : container.Holds index outer →
      outer.kind = "mod_item" → outer.Fills "body" way body →
      Defines source body place node name owner →
      Defines source container (index :: way :: place) node name owner

/-- The symbol of what is defined at a place below a container. -/
def Declares (source : Source) (container : SyntaxNode) (place : Place) (symbol : Symbol) : Prop :=
  ∃ node name owner, Defines source container place node name owner ∧
    source.Records symbol node name owner

theorem Defines.exists_cons {place : Place}
    (defines : Defines source container place node name owner) :
    ∃ index child rest, container.Holds index child ∧ place = index :: rest := by
  cases defines with
  | item item =>
      obtain ⟨index, rfl, holds, _⟩ := item
      exact ⟨index, node, [], holds, rfl⟩
  | member holds | inside holds => exact ⟨_, _, _, holds, rfl⟩

theorem Defines.at? {place : Place} (defines : Defines source container place node name owner) :
    container.at? place = some node := by
  induction defines with
  | item item =>
      obtain ⟨index, rfl, holds, _⟩ := item
      exact SyntaxNode.at?_single holds.1
  | member holds _ fills member =>
      obtain ⟨index, rfl, inside, _⟩ := member
      exact SyntaxNode.at?_append (SyntaxNode.at?_single holds.1)
        (SyntaxNode.at?_append (SyntaxNode.at?_single fills.2) (SyntaxNode.at?_single inside.1))
  | inside holds _ fills _ ih =>
      exact SyntaxNode.at?_append (SyntaxNode.at?_single holds.1)
        (SyntaxNode.at?_append (SyntaxNode.at?_single fills.2) ih)

/-- What is defined at or below a child: the child as an item, its members, or what is in a module. -/
theorem Defines.through (holds : container.Holds index child)
    (defines : Defines source container (index :: rest) node name owner) :
    (rest = [] ∧ node = child ∧ owner = none ∧ child.kind ∈ itemKinds ∧
      child.fieldText? "name" source.text = some name) ∨
    (∃ title way body more, Owns source child title ∧ child.Fills "body" way body ∧
      rest = way :: more ∧ owner = some title ∧ Member source memberKinds body more node name) ∨
    ∃ way body more, child.kind = "mod_item" ∧ child.Fills "body" way body ∧ rest = way :: more ∧
      Defines source body more node name owner := by
  cases defines with
  | item item =>
      obtain ⟨_, same, holdsToo, kind, named⟩ := item
      obtain ⟨rfl, rfl⟩ := List.cons_eq_cons.1 same
      obtain rfl := Option.some_inj.1 (holds.1.symm.trans holdsToo.1)
      exact .inl ⟨rfl, rfl, rfl, kind, named⟩
  | member holdsToo owns fills member =>
      obtain rfl := Option.some_inj.1 (holds.1.symm.trans holdsToo.1)
      exact .inr (.inl ⟨_, _, _, _, owns, fills, rfl, rfl, member⟩)
  | inside holdsToo module fills defines =>
      obtain rfl := Option.some_inj.1 (holds.1.symm.trans holdsToo.1)
      exact .inr (.inr ⟨_, _, _, module, fills, rfl, defines⟩)

/-! ## Symbols of items -/

theorem records_of_itemSymbol? {kind : SymbolKind}
    (found : itemSymbol? source cursor kind = some symbol) :
    symbol.kind = kind ∧ ∃ name, cursor.node.fieldText? "name" source.text = some name ∧
      source.Records symbol cursor.node name none := by
  obtain ⟨name, named, same⟩ := Option.bind_eq_some_iff.1 found
  cases same
  exact ⟨rfl, name, named, rfl, rfl, rfl, rfl, rfl⟩

theorem exists_itemSymbol? (named : cursor.node.fieldText? "name" source.text = some name)
    (kind : SymbolKind) : ∃ symbol, itemSymbol? source cursor kind = some symbol :=
  ⟨_, Option.bind_eq_some_iff.2 ⟨name, named, rfl⟩⟩

theorem mem_itemKinds_iff {kind : String} : kind ∈ itemKinds ↔ ∃ found, itemKind? kind = some found := by
  unfold itemKind?
  split <;> simp_all [itemKinds]

theorem mem_memberKinds_iff {kind : String} :
    kind ∈ memberKinds ↔ ∃ found, memberKind? kind = some found := by
  unfold memberKind?
  split <;> simp_all [memberKinds]

theorem itemKind?_eq_interface_iff {kind : String} :
    itemKind? kind = some .interface ↔ kind = "trait_item" := by
  unfold itemKind?
  split <;> simp_all

/-- The symbol of a member of what has this title. -/
def Belongs (source : Source) (title : String) (body : SyntaxNode) (place : Place)
    (symbol : Symbol) : Prop :=
  ∃ node name, Member source memberKinds body place node name ∧
    source.Records symbol node name (some title)

theorem emits_members (title : String) (body : SyntaxNode) :
    Emits (memberSymbols source title body) (Belongs source title body) := by
  rw [memberSymbols, List.filterMap_eq_flatMap_toList]
  refine .namedCursors (fun index cursor holds => .option (fun symbol found => ?_) ?_) ?_
  · obtain ⟨kind, known, found⟩ := Option.bind_eq_some_iff.1 found
    obtain ⟨item, found, same⟩ := Option.bind_eq_some_iff.1 found
    obtain ⟨_, name, named, records⟩ := records_of_itemSymbol? found
    cases same
    exact ⟨cursor.node, name, ⟨index, rfl, holds, mem_memberKinds_iff.2 ⟨kind, known⟩, named⟩,
      { records with enclosing := rfl }⟩
  · rintro rest symbol ⟨node, name, ⟨_, same, holdsToo, kind, named⟩, _⟩
    obtain ⟨rfl, rfl⟩ := List.cons_eq_cons.1 same
    obtain rfl := Option.some_inj.1 (holds.1.symm.trans holdsToo.1)
    obtain ⟨kind, known⟩ := mem_memberKinds_iff.1 kind
    obtain ⟨item, found⟩ := exists_itemSymbol? named kind
    rw [known, Option.bind_eq_bind, Option.bind_some, found]
    exact ⟨rfl, rfl⟩
  · rintro place symbol ⟨node, name, ⟨index, rfl, holds, _⟩, _⟩
    exact ⟨index, node, [], holds, rfl⟩

theorem Owns.unique {title other : String} (owns : Owns source node title)
    (ownsToo : Owns source node other) : title = other := by
  cases owns <;> cases ownsToo <;> simp_all

theorem emits_owned {title : String} {values : List Symbol} (holds : container.Holds index child)
    (owns : Owns source child title)
    (same : values = (child.field? "body").elim [] (memberSymbols source title)) :
    Emits values fun rest symbol => rest ≠ [] ∧ Declares source container (index :: rest) symbol := by
  refine .field same (fun _ body _ => emits_members title body) fun rest symbol => ⟨?_, ?_⟩
  · rintro ⟨inner, node, name, owner, defines, records⟩
    rcases defines.through holds with ⟨top, _⟩ |
      ⟨other, way, body, more, ownsToo, fills, rfl, rfl, member⟩ | ⟨_, _, _, kind, _⟩
    · exact absurd top inner
    · obtain rfl := owns.unique ownsToo
      exact ⟨way, body, more, fills, rfl, node, name, member, records⟩
    · cases owns <;> simp_all
  · rintro ⟨way, body, more, fills, rfl, node, name, member, records⟩
    exact ⟨List.cons_ne_nil _ _, node, name, _, .member holds owns fills member, records⟩

theorem emits_implementation (holds : container.Holds index child) (kind : child.kind = "impl_item") :
    Emits (implementationSymbols source child) fun rest =>
      Declares source container (index :: rest) := by
  have inner : ∀ rest symbol, Declares source container (index :: rest) symbol →
      rest ≠ [] ∧ ∃ type, child.fieldText? "type" source.text = some type := by
    rintro rest symbol ⟨node, name, owner, defines, _⟩
    rcases defines.through holds with ⟨_, _, _, isItem, _⟩ | ⟨_, _, _, _, owns, _, rfl, _⟩ |
      ⟨_, _, _, isModule, _⟩
    · exact absurd (kind ▸ isItem) (by decide)
    · cases owns with
      | implementation _ typed => exact ⟨List.cons_ne_nil _ _, _, typed⟩
      | trait isTrait => exact absurd (kind ▸ isTrait) (by decide)
    · exact absurd (kind ▸ isModule) (by decide)
  unfold implementationSymbols
  cases typed : child.fieldText? "type" source.text with
  | none =>
      refine .nil fun rest symbol declares => ?_
      obtain ⟨_, _, found⟩ := inner rest symbol declares
      cases typed.symm.trans found
  | some type =>
      refine (emits_owned holds (.implementation kind typed) ?_).congr fun rest symbol =>
        ⟨fun declares => declares.2, fun declares => ⟨(inner rest symbol declares).1, declares⟩⟩
      cases child.field? "body" <;> rfl

theorem emits_module (holds : container.Holds index child) (kind : child.kind = "mod_item")
    {values : List Symbol} (same : values = (child.field? "body").elim [] (containerSymbols source))
    (bodies : ∀ body, child.field? "body" = some body →
      Emits (containerSymbols source body) (Declares source body)) :
    Emits values fun rest => Declares source container (index :: rest) := by
  refine .field same (fun _ body fills => bodies body (SyntaxNode.field?_of_fills fills))
    fun rest symbol => ⟨?_, ?_⟩
  · rintro ⟨node, name, owner, defines, records⟩
    rcases defines.through holds with ⟨_, _, _, isItem, _⟩ | ⟨_, _, _, _, owns, _⟩ |
      ⟨way, body, more, _, fills, rfl, inside⟩
    · exact absurd (kind ▸ isItem) (by decide)
    · cases owns <;> simp_all
    · exact ⟨way, body, more, fills, rfl, node, name, owner, inside, records⟩
  · rintro ⟨way, body, more, fills, rfl, node, name, owner, defines, records⟩
    exact ⟨node, name, owner, .inside holds kind fills defines, records⟩

theorem emits_item (holds : container.Holds index cursor.node) (other : cursor.node.kind ≠ "impl_item")
    (otherToo : cursor.node.kind ≠ "mod_item") :
    Emits (ownSymbols source cursor) fun rest => Declares source container (index :: rest) := by
  have item : ∀ rest symbol, Declares source container (index :: rest) symbol →
      (rest = [] ∨ cursor.node.kind = "trait_item") ∧ cursor.node.kind ∈ itemKinds ∧
        ∃ name, cursor.node.fieldText? "name" source.text = some name := by
    rintro rest symbol ⟨node, name, owner, defines, _⟩
    rcases defines.through holds with ⟨rfl, _, _, kind, named⟩ | ⟨_, _, _, _, owns, _⟩ |
      ⟨_, _, _, isModule, _⟩
    · exact ⟨.inl rfl, kind, name, named⟩
    · cases owns with
      | implementation kind => exact absurd kind other
      | trait kind named => exact ⟨.inr kind, kind ▸ by decide, _, named⟩
    · exact absurd isModule otherToo
  unfold ownSymbols
  cases found : (itemKind? cursor.node.kind).bind (itemSymbol? source cursor) with
  | none =>
      refine .nil fun rest symbol declares => ?_
      obtain ⟨_, kind, name, named⟩ := item rest symbol declares
      obtain ⟨kind, known⟩ := mem_itemKinds_iff.1 kind
      obtain ⟨symbol, made⟩ := exists_itemSymbol? named kind
      rw [known, Option.bind_some, made] at found
      cases found
  | some symbol =>
      obtain ⟨kind, known, made⟩ := Option.bind_eq_some_iff.1 found
      obtain ⟨rfl, name, named, records⟩ := records_of_itemSymbol? made
      refine .cons ⟨cursor.node, name, none,
        .item ⟨index, rfl, holds, mem_itemKinds_iff.2 ⟨_, known⟩, named⟩, records⟩ ?_
      by_cases isTrait : cursor.node.kind = "trait_item"
      · rw [itemKind?_eq_interface_iff.2 isTrait, Option.some_inj] at known
        refine emits_owned holds (.trait isTrait named) ?_
        rw [← known, records.name]
        cases cursor.node.field? "body" <;> rfl
      · have plain : symbol.kind ≠ .interface := fun same =>
          isTrait (itemKind?_eq_interface_iff.1 (same ▸ known))
        split
        · exact absurd ‹_› plain
        · exact .nil fun rest other ⟨inner, declares⟩ =>
            (item rest other declares).1.elim inner isTrait

theorem containerSymbols_eq (container : SyntaxNode) :
    containerSymbols source container = container.namedCursors.flatMap fun cursor =>
      if cursor.node.kind = "impl_item" then implementationSymbols source cursor.node
      else if cursor.node.kind = "mod_item" then
        (cursor.node.field? "body").elim [] (containerSymbols source)
      else ownSymbols source cursor := by
  rw [containerSymbols]
  refine (List.flatMap_subtype fun cursor _ => ?_).trans (by rw [List.unattach_attach])
  dsimp only
  split
  next kind => rw [if_pos kind]
  next kind =>
    rw [if_neg (kind ▸ by decide), if_pos kind]
    split <;> simp only [*, Option.elim]
  next other otherToo => rw [if_neg other, if_neg otherToo]

theorem emits_container (container : SyntaxNode) :
    Emits (containerSymbols source container) (Declares source container) := by
  -- On the size of the container: only the bodies of the modules in it are walked in turn.
  induction size : container.size using Nat.strongRecOn generalizing container with
  | ind bound ih =>
      subst size
      rw [containerSymbols_eq]
      refine .namedCursors (fun index cursor holds => ?_) fun place symbol declares => ?_
      · by_cases implements : cursor.node.kind = "impl_item"
        · rw [if_pos implements]
          exact emits_implementation holds implements
        · rw [if_neg implements]
          by_cases module : cursor.node.kind = "mod_item"
          · rw [if_pos module]
            refine emits_module holds module rfl fun body found => ih _ ?_ body rfl
            exact Nat.lt_trans (SyntaxNode.size_lt_of_field? found)
              (SyntaxNode.size_lt_of_mem_namedChildren
                (List.mem_filter.2 ⟨List.mem_of_getElem? holds.1, holds.2⟩))
          · rw [if_neg module]
            exact emits_item holds implements module
      · obtain ⟨_, _, _, defines, _⟩ := declares
        exact defines.exists_cons

/-- The symbols of a Rust file: each named item that is reached through inline modules only has one, and
so has each named member in the body of an implementation or of a named trait that is reached so. They
stand in pre-order, members with what they belong to, and nothing else has a symbol. -/
theorem items_exact (source : Source) (root : SyntaxNode) :
    ∃ emitted : List (Place × Symbol), symbols source root = emitted.map Prod.snd ∧
      emitted.Pairwise (fun earlier later => earlier.1 < later.1) ∧
      (∀ place, (∃ symbol, (place, symbol) ∈ emitted) ↔
        ∃ node name owner, Defines source root place node name owner) ∧
      ∀ entry ∈ emitted, ∃ node name owner, root.at? entry.1 = some node ∧
        source.Records entry.2 node name owner ∧ Defines source root entry.1 node name owner := by
  have emits : Emits (symbols source root) (Declares source root) := emits_container root
  obtain ⟨emitted, same, ordered, sound, complete⟩ := emits
  refine ⟨emitted, same, ordered, fun place => ⟨?_, ?_⟩, fun entry member => ?_⟩
  · rintro ⟨symbol, member⟩
    obtain ⟨node, name, owner, defines, _⟩ := sound _ member
    exact ⟨node, name, owner, defines⟩
  · rintro ⟨node, name, owner, defines⟩
    obtain ⟨symbol, records⟩ := source.exists_records node name owner
    exact complete place symbol ⟨node, name, owner, defines, records⟩
  · obtain ⟨node, name, owner, defines, records⟩ := sound entry member
    exact ⟨node, name, owner, defines.at?, records, defines⟩

end SourceBaseline.Rust
