import Mathlib.Data.List.TakeWhile
import SourceBaseline.Proofs.Language.Declaration
import SourceBaseline.Proofs.SyntaxTree.Places
import SourceBaseline.Proofs.Text.Positions

/-!
# The names of declarations

A declaration has a title, from which its name is read. `StandsFor` says that a symbol has the name which
the title gives, and that the name is empty just if the title is blank. `RepresentsAll` says so of a list of
symbols; its lemmas follow the ways in which these lists are put together.
-/

set_option autoImplicit false

namespace SourceBaseline

variable {source : Source} {text : List Char}

namespace Text

theorem trim_eq_nil_iff : trim text = [] ↔ ∀ char ∈ text, isBlank char = true := by
  have spread : ∀ rest : List Char, (rest.reverse.dropWhile isBlank).reverse = [] ↔
      ∀ char ∈ rest, isBlank char = true := by
    intro rest
    rw [List.reverse_eq_nil_iff, List.dropWhile_eq_nil_iff]
    simp only [List.mem_reverse]
  rw [trim, dropTrailing, spread]
  refine ⟨fun blank char member => ?_, fun blank char member => blank char ?_⟩
  · have whole : text.takeWhile isBlank ++ text.dropWhile isBlank = text :=
      List.takeWhile_append_dropWhile
    rw [← whole] at member
    rcases List.mem_append.1 member with front | back
    · exact List.mem_takeWhile_imp front
    · exact blank char back
  · exact (List.dropWhile_sublist _).subset member

theorem splitOnce?_append {separator : Char} {before after : List Char} (absent : separator ∉ before) :
    splitOnce? separator (before ++ separator :: after) = some (before, after) := by
  induction before with
  | nil => exact if_pos rfl
  | cons char rest ih =>
      obtain ⟨other, absent⟩ := not_or.1 (mt List.mem_cons.2 absent)
      rw [List.cons_append, splitOnce?, if_neg (Ne.symm other), ih absent]
      rfl

theorem append_of_splitOnce? {separator : Char} {before after : List Char}
    (split : splitOnce? separator text = some (before, after)) :
    text = before ++ separator :: after := by
  induction text generalizing before with
  | nil => cases split
  | cons char rest ih =>
      unfold splitOnce? at split
      split at split
      next same =>
        cases split
        exact congrArg (· :: _) same
      next =>
        obtain ⟨⟨front, back⟩, found, same⟩ := Option.map_eq_some_iff.1 split
        cases same
        exact congrArg (char :: ·) (ih found)

end Text

/-! ## Titles -/

/-- What a declaration is named after: the text of a node, what stands before the first `=` of an argument,
or the content of a literal. -/
inductive Title where
  | text (node : SyntaxNode)
  | assigned (argument : SyntaxNode)
  | content (literal : SyntaxNode)

namespace Title

/-- The name that a title gives. -/
def name? (text : List Char) : Title → Option (List Char)
  | .text node => node.text? text
  | .assigned argument =>
      (argument.text? text).bind fun written =>
        (Text.splitOnce? '=' written).map fun parts => Text.trim parts.1
  | .content literal => (literal.text? text).map Source.unquote

/-- A title from which nothing is left for a name: a node without width, or blanks before the first `=`. -/
def IsBlank (text : List Char) : Title → Prop
  | .text node => node.start = node.stop
  | .assigned argument => ∃ blanks rest, argument.text? text = some (blanks ++ '=' :: rest) ∧
      ∀ char ∈ blanks, Text.isBlank char = true
  | .content _ => False

theorem eq_nil_iff_of_text {node : SyntaxNode} {name : List Char}
    (named : (Title.text node).name? text = some name) :
    name = [] ↔ (Title.text node).IsBlank text := by
  have bytes := Text.add_byteCount_of_slice? named
  rw [← Text.byteCount_eq_zero_iff, IsBlank]
  omega

theorem eq_nil_iff_of_assigned {argument : SyntaxNode} {name : List Char}
    (named : (Title.assigned argument).name? text = some name) :
    name = [] ↔ (Title.assigned argument).IsBlank text := by
  obtain ⟨written, read, named⟩ := Option.bind_eq_some_iff.1 named
  obtain ⟨⟨before, after⟩, split, same⟩ := Option.map_eq_some_iff.1 named
  rw [← same, Text.trim_eq_nil_iff, IsBlank]
  constructor
  · intro blank
    exact ⟨before, after, Text.append_of_splitOnce? split ▸ read, blank⟩
  · intro ⟨blanks, rest, readToo, blank⟩
    have absent : '=' ∉ blanks := fun member => absurd (blank _ member) (by decide)
    obtain rfl := Option.some_inj.1 (read.symm.trans readToo)
    cases split.symm.trans (Text.splitOnce?_append absent)
    exact blank

end Title

/-- The title of a declaration: the node of its name, the target of an assignment, the argument of an alias,
or the first argument of a call. -/
inductive SyntaxNode.HasTitle : SyntaxNode → Title → Prop
  | name {declaration node : SyntaxNode} : node ∈ declaration.children → node.field = some "name" →
      HasTitle declaration (.text node)
  | target {statement assignment node : SyntaxNode} : statement.firstNamed? = some assignment →
      assignment.kind = "assignment" → assignment.field? "left" = some node →
      node.kind = "identifier" → HasTitle statement (.text node)
  | assigned {command argument : SyntaxNode} : command.kind = "command" →
      command.field? "argument" = some argument → HasTitle command (.assigned argument)
  | literal {call arguments literal : SyntaxNode} : call.kind = "call_expression" →
      call.field? "arguments" = some arguments → arguments.firstNamed? = some literal →
      literal.kind = "string" → HasTitle call (.content literal)

theorem SyntaxNode.hasTitle_of_field? {declaration node : SyntaxNode}
    (found : declaration.field? "name" = some node) : declaration.HasTitle (.text node) := by
  have fills := List.find?_some found
  exact .name (List.mem_of_find?_eq_some found) (of_decide_eq_true fills)

/-! ## Symbols of declarations -/

namespace Source

/-- A symbol stands for a declaration under the name of its title. -/
def StandsFor (source : Source) (symbol : Symbol) (declaration : SyntaxNode) (owner : Option String) :
    Prop :=
  ∃ title name, declaration.HasTitle title ∧ title.name? source.text = some name ∧
    (name = [] ↔ title.IsBlank source.text) ∧ source.Records symbol declaration name owner

/-- A symbol stands for a declaration of a tree. -/
def Represents (source : Source) (root : SyntaxNode) (symbol : Symbol) : Prop :=
  ∃ declaration owner, root.Has declaration ∧ source.StandsFor symbol declaration owner

/-- Every symbol stands for a declaration. -/
def RepresentsAll (source : Source) (root : SyntaxNode) (symbols : List Symbol) : Prop :=
  ∀ symbol ∈ symbols, source.Represents root symbol

variable {root node : SyntaxNode} {symbol : Symbol} {name : List Char} {owner : Option String}

theorem standsFor_of_node {title : SyntaxNode} (titled : node.HasTitle (.text title))
    (named : title.text? source.text = some name) (records : source.Records symbol node name owner) :
    source.StandsFor symbol node owner :=
  ⟨.text title, name, titled, named, Title.eq_nil_iff_of_text named, records⟩

theorem standsFor_of_fieldText? (named : node.fieldText? "name" source.text = some name)
    (records : source.Records symbol node name owner) : source.StandsFor symbol node owner := by
  obtain ⟨title, found, read⟩ := Option.bind_eq_some_iff.1 named
  exact standsFor_of_node (SyntaxNode.hasTitle_of_field? found) read records

theorem StandsFor.represents (stands : source.StandsFor symbol node owner) :
    source.Represents node symbol :=
  ⟨node, owner, .refl node, stands⟩

theorem represents_of_fieldText? (named : node.fieldText? "name" source.text = some name)
    (records : source.Records symbol node name owner) : source.Represents node symbol :=
  (standsFor_of_fieldText? named records).represents

theorem Represents.within (represents : source.Represents node symbol) (has : root.Has node) :
    source.Represents root symbol := by
  obtain ⟨declaration, owner, below, stands⟩ := represents
  exact ⟨declaration, owner, has.trans below, stands⟩

namespace RepresentsAll

variable {α : Type} {items : List α} {symbols more : List Symbol}

theorem nil : source.RepresentsAll root [] := by simp [RepresentsAll]

theorem cons (first : source.Represents root symbol) (rest : source.RepresentsAll root symbols) :
    source.RepresentsAll root (symbol :: symbols) :=
  List.forall_mem_cons.2 ⟨first, rest⟩

theorem append (front : source.RepresentsAll root symbols) (back : source.RepresentsAll root more) :
    source.RepresentsAll root (symbols ++ more) :=
  List.forall_mem_append.2 ⟨front, back⟩

theorem of_subset (all : source.RepresentsAll root symbols) (within : more ⊆ symbols) :
    source.RepresentsAll root more :=
  fun symbol member => all symbol (within member)

theorem within (all : source.RepresentsAll node symbols) (has : root.Has node) :
    source.RepresentsAll root symbols :=
  fun symbol member => (all symbol member).within has

theorem flatMap {found : α → List Symbol}
    (each : ∀ item ∈ items, source.RepresentsAll root (found item)) :
    source.RepresentsAll root (items.flatMap found) := by
  intro symbol member
  obtain ⟨item, inside, here⟩ := List.mem_flatMap.1 member
  exact each item inside symbol here

theorem filterMap {found? : α → Option Symbol}
    (each : ∀ item ∈ items, ∀ symbol, found? item = some symbol → source.Represents root symbol) :
    source.RepresentsAll root (items.filterMap found?) := by
  intro symbol member
  obtain ⟨item, inside, found⟩ := List.mem_filterMap.1 member
  exact each item inside symbol found

theorem toList {found : Option Symbol}
    (each : ∀ symbol, found = some symbol → source.Represents root symbol) :
    source.RepresentsAll root found.toList :=
  fun symbol member => each symbol (Option.mem_toList.1 member)

end RepresentsAll

end Source

end SourceBaseline
