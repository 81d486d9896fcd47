import Mathlib.Algebra.GroupWithZero.Nat
import SourceBaseline.Snapshot

/-!
# The language of most files

A language has the files of all of its extensions. `Leads` says which language is the first in the alphabet
of those with most files, and `detectLanguage_eq_iff` that this is the one that is detected.
-/

set_option autoImplicit false

namespace SourceBaseline

variable {extensions : SortedMap String Nat} {totals : SortedMap String Nat} {entry best : String × Nat}
  {entries : List (String × Nat)} {extension language other : String}

def IsExtensionOf (extension language : String) : Prop :=
  ∃ row ∈ languageExtensions, row.1 = language ∧ extension ∈ row.2

instance (extension language : String) : Decidable (IsExtensionOf extension language) :=
  inferInstanceAs (Decidable (∃ row ∈ languageExtensions, row.1 = language ∧ extension ∈ row.2))

/-- No extension belongs to two languages. -/
theorem languageForExtension?_eq_some_iff :
    languageForExtension? extension = some language ↔ IsExtensionOf extension language := by
  have apart : ∀ row ∈ languageExtensions, ∀ rival ∈ languageExtensions, ∀ extension ∈ row.2,
      extension ∈ rival.2 → row = rival := by decide +kernel
  rw [languageForExtension?, Option.map_eq_some_iff]
  constructor
  · rintro ⟨row, found, rfl⟩
    exact ⟨row, List.mem_of_find?_eq_some found, rfl, by simpa using List.find?_some found⟩
  · rintro ⟨row, member, rfl, inside⟩
    cases found : languageExtensions.find? (·.2.contains extension) with
    | none => exact absurd (List.find?_eq_none.1 found row member) (by simpa using inside)
    | some rival =>
        have insideToo : extension ∈ rival.2 := by simpa using List.find?_some found
        exact ⟨rival, rfl, congrArg Prod.fst
          (apart rival (List.mem_of_find?_eq_some found) row member extension insideToo inside)⟩

/-! ## Totals -/

/-- The counts of the extensions of a language. -/
def countsOf (language : String) (entries : List (String × Nat)) : List Nat :=
  (entries.filter fun entry => IsExtensionOf entry.1 language).map Prod.snd

/-- Count the files of one extension for its language. -/
def addFiles (totals : SortedMap String Nat) (entry : String × Nat) : SortedMap String Nat :=
  match languageForExtension? entry.1 with
  | none => totals
  | some language => totals.insert language ((totals.find? language).getD 0 + entry.2)

theorem find?_addFiles :
    (addFiles totals entry).find? language =
      if IsExtensionOf entry.1 language then some ((totals.find? language).getD 0 + entry.2)
      else totals.find? language := by
  rw [addFiles]
  simp only [← languageForExtension?_eq_some_iff]
  cases languageForExtension? entry.1 with
  | none => rfl
  | some named =>
      simp only [SortedMap.find?_insert, Option.some.injEq]
      split
      next same => rw [same]
      next => rfl

theorem countsOf_cons_of_extension (mine : IsExtensionOf entry.1 language) :
    countsOf language (entry :: entries) = entry.2 :: countsOf language entries := by
  simp [countsOf, mine]

theorem countsOf_cons_of_other (foreign : ¬ IsExtensionOf entry.1 language) :
    countsOf language (entry :: entries) = countsOf language entries := by
  simp [countsOf, foreign]

theorem find?_foldl_addFiles :
    (entries.foldl addFiles totals).find? language =
      if countsOf language entries = [] then totals.find? language
      else some ((totals.find? language).getD 0 + (countsOf language entries).sum) := by
  induction entries generalizing totals with
  | nil => rfl
  | cons entry rest ih =>
      rw [List.foldl_cons, ih, find?_addFiles]
      by_cases mine : IsExtensionOf entry.1 language
      · rw [if_pos mine, countsOf_cons_of_extension mine, if_neg (List.cons_ne_nil _ _), List.sum_cons]
        split
        next none => simp [none]
        next => rw [Option.getD_some, Nat.add_assoc]
      · rw [if_neg mine, countsOf_cons_of_other mine]

/-- Whether one of the extensions belongs to the language. -/
def Occurs (extensions : SortedMap String Nat) (language : String) : Prop :=
  ∃ entry ∈ extensions.entries, IsExtensionOf entry.1 language

/-- The number of files of a language, over all of its extensions. -/
def filesOf (extensions : SortedMap String Nat) (language : String) : Nat :=
  (countsOf language extensions.entries).sum

theorem mem_languageTotals_iff {count : Nat} :
    (language, count) ∈ (languageTotals extensions).entries ↔
      Occurs extensions language ∧ filesOf extensions language = count := by
  have counted : languageTotals extensions = extensions.entries.foldl addFiles .empty := rfl
  have occurs : Occurs extensions language ↔ countsOf language extensions.entries ≠ [] := by
    simp [Occurs, countsOf]
  rw [← SortedMap.find?_eq_some_iff, counted, find?_foldl_addFiles, occurs, filesOf]
  split
  next none => simp [none, SortedMap.find?, SortedMap.empty]
  next some => simp [some, SortedMap.find?, SortedMap.empty]

/-! ## The greatest total -/

theorem firstGreatest?_eq_none_iff : firstGreatest? entries = none ↔ entries = [] := by
  cases entries with
  | nil => simp [firstGreatest?]
  | cons entry rest =>
      rw [firstGreatest?]
      split
      · simp
      · split <;> simp

/-- Every entry before the one that is found has a smaller number, and no entry after it a greater one. -/
theorem split_of_firstGreatest? (found : firstGreatest? entries = some best) :
    ∃ before after, entries = before ++ best :: after ∧ (∀ other ∈ before, other.2 < best.2) ∧
      ∀ other ∈ after, other.2 ≤ best.2 := by
  induction entries generalizing best with
  | nil => cases found
  | cons entry rest ih =>
      rw [firstGreatest?] at found
      cases later : firstGreatest? rest with
      | none =>
          rw [later] at found
          cases found
          rw [firstGreatest?_eq_none_iff.1 later]
          exact ⟨[], [], rfl, nofun, nofun⟩
      | some rival =>
          obtain ⟨before, after, whole, less, atMost⟩ := ih later
          simp only [later] at found
          split at found
          next smaller =>
            cases found
            exact ⟨entry :: before, after, by rw [whole]; rfl, List.forall_mem_cons.2 ⟨smaller, less⟩, atMost⟩
          next greatest =>
            cases found
            refine ⟨[], rest, rfl, nofun, fun other member => ?_⟩
            have bounded : other.2 ≤ rival.2 := by
              rw [whole, List.mem_append, List.mem_cons] at member
              rcases member with earlier | rfl | later
              · exact Nat.le_of_lt (less other earlier)
              · exact Nat.le_refl _
              · exact atMost other later
            omega

/-! ## Detection -/

/-- The language is the first in the alphabet of those that occur with the greatest number of files. -/
structure Leads (extensions : SortedMap String Nat) (language : String) : Prop where
  occurs : Occurs extensions language
  greatest : ∀ other, Occurs extensions other → filesOf extensions other ≤ filesOf extensions language
  first : ∀ other, Occurs extensions other →
    filesOf extensions other = filesOf extensions language → ¬ other < language

theorem Leads.unique (leads : Leads extensions language) (leadsToo : Leads extensions other) :
    language = other := by
  have equal : filesOf extensions other = filesOf extensions language :=
    Nat.le_antisymm (leads.greatest other leadsToo.occurs) (leadsToo.greatest language leads.occurs)
  rcases KeyOrder.connex language other with less | same | less
  · exact absurd less (leadsToo.first language leads.occurs equal.symm)
  · exact same
  · exact absurd less (leads.first other leadsToo.occurs equal)

theorem leads_of_firstGreatest? (found : firstGreatest? (languageTotals extensions).entries = some best) :
    Leads extensions best.1 := by
  obtain ⟨before, after, whole, less, atMost⟩ := split_of_firstGreatest? found
  obtain ⟨_, behind, _⟩ := List.pairwise_append.1 (whole ▸ (languageTotals extensions).sorted)
  have here : best ∈ (languageTotals extensions).entries := by
    rw [whole]
    exact List.mem_append_right _ (.head _)
  obtain ⟨occurs, count⟩ := mem_languageTotals_iff.1 here
  -- A language that occurs has its total before the one that is found, there or after it.
  have placed : ∀ other, Occurs extensions other → filesOf extensions other < best.2 ∨
      filesOf extensions other ≤ best.2 ∧ (other = best.1 ∨ best.1 < other) := by
    intro other occursToo
    have member := mem_languageTotals_iff.2 ⟨occursToo, rfl⟩
    rw [whole, List.mem_append, List.mem_cons] at member
    rcases member with earlier | same | later
    · exact .inl (less _ earlier)
    · exact .inr ⟨Nat.le_of_eq (congrArg Prod.snd same), .inl (congrArg Prod.fst same)⟩
    · exact .inr ⟨atMost _ later, .inr ((List.pairwise_cons.1 behind).1 _ later)⟩
  refine ⟨occurs, fun other occursToo => ?_, fun other occursToo equal before => ?_⟩
  · rcases placed other occursToo with less | ⟨atMost, _⟩ <;> omega
  · rcases placed other occursToo with less | ⟨_, rfl | behind⟩
    · omega
    · exact KeyOrder.irrefl _ before
    · exact KeyOrder.irrefl _ (KeyOrder.trans behind before)

/-- What is detected is the first language in the alphabet of those with most files, and nothing is known
just if no extension belongs to a language. -/
theorem detectLanguage_eq_iff (extensions : SortedMap String Nat) (language : String) :
    (detectLanguage extensions = language ↔
      Leads extensions language ∨ language = "unknown" ∧ ∀ other, ¬ Occurs extensions other) ∧
    (detectLanguage extensions = "unknown" ↔ ∀ other, ¬ Occurs extensions other) := by
  have known : ¬ Leads extensions "unknown" := by
    rintro ⟨⟨_, _, row, member, named, _⟩, _, _⟩
    have apart : ∀ row ∈ languageExtensions, row.1 ≠ "unknown" := by decide
    exact apart row member named
  have answer : Leads extensions (detectLanguage extensions) ∨
      detectLanguage extensions = "unknown" ∧ ∀ other, ¬ Occurs extensions other := by
    rw [detectLanguage]
    cases found : firstGreatest? (languageTotals extensions).entries with
    | none =>
        refine .inr ⟨rfl, fun other occurs => ?_⟩
        have member := mem_languageTotals_iff.2 ⟨occurs, rfl⟩
        rw [firstGreatest?_eq_none_iff.1 found] at member
        cases member
    | some best => exact .inl (leads_of_firstGreatest? found)
  have unknown : detectLanguage extensions = "unknown" ↔ ∀ other, ¬ Occurs extensions other := by
    constructor
    · intro unknown
      rw [unknown] at answer
      exact (answer.resolve_left known).2
    · intro absent
      exact (answer.resolve_left fun leads => absent _ leads.occurs).1
  refine ⟨⟨?_, ?_⟩, unknown⟩
  · rintro rfl
    exact answer
  · rintro (leads | ⟨rfl, absent⟩)
    · exact (answer.resolve_right fun none => none.2 _ leads.occurs).unique leads
    · exact unknown.2 absent

/-- Of languages with equally many files the first in the alphabet is detected. -/
example : detectLanguage (.ofList [("rs", 2), ("pyi", 1), ("txt", 5), ("py", 1)]) = "python" := by
  decide +kernel

end SourceBaseline
