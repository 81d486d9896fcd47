import SourceBaseline.Language.Declaration

/-!
# What a symbol says of a declaration

Every language makes its symbols with `Source.symbolAt`, so a symbol says where the node of its
declaration starts. Rows and columns that do not fit 32 bits all count as the greatest number.
-/

set_option autoImplicit false

namespace SourceBaseline.Source

/-- The symbol of a declaration: its name, what it belongs to, its file, and where its node starts. -/
structure Records (source : Source) (symbol : Symbol) (node : SyntaxNode) (name : List Char)
    (owner : Option String) : Prop where
  name : symbol.name = .ofList name
  enclosing : symbol.enclosing = owner
  file : symbol.file = source.file
  line : symbol.line = cappedCount (node.startRow source.text + 1)
  column : symbol.column = cappedCount (Text.columnAt node.start source.text)

theorem exists_records (source : Source) (node : SyntaxNode) (name : List Char)
    (owner : Option String) : ∃ symbol, source.Records symbol node name owner :=
  ⟨{ source.symbolAt node name .function with enclosing := owner }, rfl, rfl, rfl, rfl, rfl⟩

theorem nonempty?_eq_some_iff {text : List Char} {found : String} :
    nonempty? text = some found ↔ text ≠ [] ∧ found = .ofList text := by
  unfold nonempty?
  split
  next empty => simp [empty]
  next nonempty => simp [nonempty, eq_comm]

theorem nonempty?_injective : Function.Injective nonempty? := by
  intro text more same
  have whole : ∀ text, ((nonempty? text).map String.toList).getD [] = text := by
    intro text
    unfold nonempty?
    split
    next empty => exact empty.symm
    next => exact String.toList_ofList
  rw [← whole text, same, whole]

theorem toNat_cappedCount (value : Nat) :
    (cappedCount value).toNat = min value (UInt32.size - 1) :=
  UInt32.toNat_ofNat_of_lt' (Nat.lt_of_le_of_lt (Nat.min_le_right _ _) (by decide))

theorem cappedCount_eq_iff {left right : Nat} :
    cappedCount left = cappedCount right ↔
      left = right ∨ UInt32.size ≤ left + 1 ∧ UInt32.size ≤ right + 1 := by
  rw [← UInt32.toNat_inj, toNat_cappedCount, toNat_cappedCount]
  have positive : 0 < UInt32.size := by decide
  omega

end SourceBaseline.Source
