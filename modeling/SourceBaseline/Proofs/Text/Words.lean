import Mathlib.Data.List.Basic
import SourceBaseline.Text.Blank

/-!
# Words and blanks

A text is a list of words with blanks before, between and after them. `Spaced` says so without the
function that finds the words, and `words_eq_iff` ties both together: a text has one list of words,
whatever its blanks. Collapsing a text keeps its words and nothing else of it.
-/

set_option autoImplicit false

namespace SourceBaseline.Text

variable {char next : Char} {gap word more rest text : List Char} {tokens : List (List Char)}

/-- One or more characters, none of them blank. -/
def IsWord (word : List Char) : Prop :=
  word ≠ [] ∧ ∀ char ∈ word, isBlank char = false

instance : DecidablePred IsWord := fun word =>
  inferInstanceAs (Decidable (word ≠ [] ∧ ∀ char ∈ word, isBlank char = false))

def IsGap (gap : List Char) : Prop :=
  ∀ char ∈ gap, isBlank char = true

instance : DecidablePred IsGap := fun gap =>
  inferInstanceAs (Decidable (∀ char ∈ gap, isBlank char = true))

/-- Whether a word that stands before the text ends there. -/
def Breaks (text : List Char) : Prop :=
  ∀ first ∈ text.head?, isBlank first = true

/-- The text is made up of these words, in this order, and of blanks. -/
inductive Spaced : List (List Char) → List Char → Prop where
  | blank {blanks : List Char} : IsGap blanks → Spaced [] blanks
  | word {blanks first after : List Char} {others : List (List Char)} :
      IsGap blanks → IsWord first → Breaks after → Spaced others after →
      Spaced (first :: others) (blanks ++ first ++ after)

theorem breaks_cons_iff : Breaks (char :: rest) ↔ isBlank char = true := by
  simp [Breaks]

theorem Spaced.isWord (spaced : Spaced tokens text) : ∀ word ∈ tokens, IsWord word := by
  induction spaced with
  | blank => exact nofun
  | word _ first _ _ ih => exact List.forall_mem_cons.2 ⟨first, ih⟩

theorem Spaced.cons_word (later : Spaced tokens text) (isWord : IsWord word) (breaks : Breaks text) :
    Spaced (word :: tokens) (word ++ text) := by
  have empty : IsGap [] := nofun
  exact .word empty isWord breaks later

theorem Spaced.cons_blank (spaced : Spaced tokens text) (blank : isBlank char = true) :
    Spaced tokens (char :: text) := by
  cases spaced with
  | blank gap => exact .blank (List.forall_mem_cons.2 ⟨blank, gap⟩)
  | @word blanks _ _ _ gap first breaks later =>
      have longer : IsGap (char :: blanks) := List.forall_mem_cons.2 ⟨blank, gap⟩
      exact .word longer first breaks later

/-- A character before a text that begins with a word makes that word longer. -/
theorem Spaced.cons_solid (spaced : Spaced tokens (next :: more)) (begins : isBlank next = false)
    (solid : isBlank char = false) :
    ∃ first others, tokens = first :: others ∧
      Spaced ((char :: first) :: others) (char :: next :: more) := by
  generalize whole : next :: more = text at spaced
  have flush : ∀ {blanks others : List Char}, IsGap blanks → next :: more = blanks ++ others →
      blanks = [] := by
    intro blanks others gap split
    cases blanks with
    | nil => rfl
    | cons blank _ =>
        cases split
        rw [gap next (.head _)] at begins
        cases begins
  cases spaced with
  | blank gap => exact absurd (flush gap (whole.trans (List.append_nil _).symm)) (by simp [← whole])
  | @word blanks first after others gap isWord breaks later =>
      have empty : blanks = [] := flush gap (whole.trans (List.append_assoc ..))
      subst empty
      have longer : IsWord (char :: first) :=
        ⟨List.cons_ne_nil _ _, List.forall_mem_cons.2 ⟨solid, isWord.2⟩⟩
      exact ⟨first, others, rfl, later.cons_word longer breaks⟩

/-! ## The words that are found -/

theorem words_cons_blank (blank : isBlank char = true) : words (char :: rest) = words rest := by
  rw [words, if_pos blank]

theorem words_cons_apart (solid : isBlank char = false) (breaks : Breaks rest) :
    words (char :: rest) = [char] :: words rest := by
  rw [words, if_neg (by simp [solid]), if_pos]
  cases rest with
  | nil => rfl
  | cons first others => exact breaks_cons_iff.1 breaks

theorem words_cons_joined {others : List (List Char)} (solid : isBlank char = false)
    (begins : isBlank next = false) (found : words (next :: more) = word :: others) :
    words (char :: next :: more) = (char :: word) :: others := by
  rw [words, if_neg (by simp [solid]), if_neg (by simp [begins]), found]

theorem words_gap_append (blank : IsGap gap) : words (gap ++ text) = words text := by
  induction gap with
  | nil => rfl
  | cons char rest ih =>
      obtain ⟨first, later⟩ := List.forall_mem_cons.1 blank
      rw [List.cons_append, words_cons_blank first, ih later]

theorem words_word_append (isWord : IsWord word) (breaks : Breaks text) :
    words (word ++ text) = word :: words text := by
  obtain ⟨nonempty, solid⟩ := isWord
  induction word with
  | nil => exact absurd rfl nonempty
  | cons char rest ih =>
      obtain ⟨first, later⟩ := List.forall_mem_cons.1 solid
      cases rest with
      | nil => exact words_cons_apart first breaks
      | cons next others =>
          exact words_cons_joined first (later next (.head _)) (ih (List.cons_ne_nil _ _) later)

theorem words_of_spaced (spaced : Spaced tokens text) : words text = tokens := by
  induction spaced with
  | @blank blanks gap => rw [← List.append_nil blanks, words_gap_append gap, words]
  | word gap first breaks _ ih =>
      rw [List.append_assoc, words_gap_append gap, words_word_append first breaks, ih]

theorem spaced_words (text : List Char) : Spaced (words text) text := by
  induction text with
  | nil => exact .blank nofun
  | cons char rest ih =>
      have apart : isBlank char = false → Breaks rest → Spaced (words (char :: rest)) (char :: rest) := by
        intro solid breaks
        rw [words_cons_apart solid breaks]
        exact ih.cons_word ⟨List.cons_ne_nil _ _, by simpa using solid⟩ breaks
      -- A solid character is a word by itself, or makes the word that follows it longer.
      cases solid : isBlank char with
      | true =>
          rw [words_cons_blank solid]
          exact ih.cons_blank solid
      | false =>
          cases rest with
          | nil => exact apart solid nofun
          | cons next more =>
              cases begins : isBlank next with
              | true => exact apart solid (breaks_cons_iff.2 begins)
              | false =>
                  obtain ⟨first, others, found, longer⟩ := ih.cons_solid begins solid
                  rw [words_cons_joined solid begins found]
                  exact longer

/-- A text has exactly one list of words. -/
theorem words_eq_iff : words text = tokens ↔ Spaced tokens text :=
  ⟨fun same => same ▸ spaced_words text, words_of_spaced⟩

/-! ## Collapsing -/

theorem spaced_intercalate (isWord : ∀ word ∈ tokens, IsWord word) :
    Spaced tokens ([' '].intercalate tokens) := by
  have space : isBlank ' ' = true := by decide
  induction tokens with
  | nil => exact .blank nofun
  | cons word rest ih =>
      obtain ⟨first, later⟩ := List.forall_mem_cons.1 isWord
      by_cases last : rest = []
      · subst last
        have ends : Spaced [] [] := .blank nofun
        simpa using ends.cons_word first nofun
      · rw [List.intercalate_cons_of_ne_nil last, List.append_assoc]
        exact ((ih later).cons_blank space).cons_word first (breaks_cons_iff.2 space)

theorem collapse_of_spaced (spaced : Spaced tokens text) :
    collapse text = [' '].intercalate tokens := by
  rw [collapse, words_of_spaced spaced]

theorem words_intercalate (isWord : ∀ word ∈ tokens, IsWord word) :
    words ([' '].intercalate tokens) = tokens :=
  words_of_spaced (spaced_intercalate isWord)

theorem words_collapse (text : List Char) : words (collapse text) = words text :=
  words_intercalate (spaced_words text).isWord

theorem collapse_collapse (text : List Char) : collapse (collapse text) = collapse text := by
  rw [collapse, words_collapse, collapse]

theorem collapse_eq_iff {other : List Char} :
    collapse text = collapse other ↔ words text = words other :=
  ⟨fun same => by rw [← words_collapse text, same, words_collapse],
    congrArg ([' '].intercalate ·)⟩

theorem collapse_eq_nil_iff : collapse text = [] ↔ words text = [] := by
  have empty : collapse text = collapse [] ↔ words text = words [] := collapse_eq_iff
  exact empty

/-! ## Collapsing from character to character -/

/-- What stands between a character and the words after it. -/
def spaceBefore (rest : List Char) : List Char :=
  if rest.head?.any isBlank ∧ collapse rest ≠ [] then [' '] else []

theorem eq_of_mem_spaceBefore (member : char ∈ spaceBefore rest) : char = ' ' := by
  rw [spaceBefore] at member
  split at member
  · exact List.mem_singleton.1 member
  · cases member

theorem collapse_cons_blank (blank : isBlank char = true) :
    collapse (char :: rest) = collapse rest := by
  rw [collapse, words_cons_blank blank, collapse]

theorem collapse_cons_solid (solid : isBlank char = false) :
    collapse (char :: rest) = char :: (spaceBefore rest ++ collapse rest) := by
  cases rest with
  | nil => simp [collapse, words, solid, spaceBefore]
  | cons next more =>
      cases begins : isBlank next with
      | true =>
          rw [collapse, words_cons_apart solid (breaks_cons_iff.2 begins)]
          by_cases wordless : words (next :: more) = []
          · simp [spaceBefore, collapse, wordless]
          · have nonempty : collapse (next :: more) ≠ [] := mt collapse_eq_nil_iff.1 wordless
            rw [List.intercalate_cons_of_ne_nil wordless, spaceBefore,
              if_pos ⟨by simpa using begins, nonempty⟩]
            rfl
      | false =>
          obtain ⟨first, others, found, _⟩ := (spaced_words (next :: more)).cons_solid begins solid
          rw [collapse, words_cons_joined solid begins found, List.intercalate_cons_cons_left,
            spaceBefore, if_neg (by simp [begins]), collapse, found]
          rfl

/-- A collapsed text consists of spaces and of characters of the words. -/
theorem eq_or_mem_of_mem_collapse (member : char ∈ collapse text) :
    char = ' ' ∨ char ∈ text ∧ isBlank char = false := by
  induction text with
  | nil => cases member
  | cons first rest ih =>
      cases solid : isBlank first with
      | true =>
          rw [collapse_cons_blank solid] at member
          exact (ih member).imp_right (.imp_left (.tail _))
      | false =>
          rw [collapse_cons_solid solid, List.mem_cons, List.mem_append] at member
          rcases member with rfl | space | later
          · exact .inr ⟨.head _, solid⟩
          · exact .inl (eq_of_mem_spaceBefore space)
          · exact (ih later).imp_right (.imp_left (.tail _))

/-- A text that ends in a word ends in the same character when it is collapsed. -/
theorem getLast?_collapse_concat (solid : isBlank char = false) :
    (collapse (text ++ [char])).getLast? = some char := by
  induction text with
  | nil => simp [collapse, words, solid]
  | cons first rest ih =>
      rw [List.cons_append]
      cases firstSolid : isBlank first with
      | true => rw [collapse_cons_blank firstSolid, ih]
      | false =>
          rw [collapse_cons_solid firstSolid, ← List.cons_append, List.getLast?_append, ih]
          rfl

/-- What is written after a text stands, blanks apart, after what the text collapses to. -/
theorem exists_collapse_append (text tail : List Char) :
    ∃ added, collapse (text ++ tail) = collapse text ++ added ∧
      ∀ char ∈ added, char = ' ' ∨ char ∈ tail ∧ isBlank char = false := by
  induction text with
  | nil => exact ⟨collapse tail, rfl, fun _ => eq_or_mem_of_mem_collapse⟩
  | cons first rest ih =>
      obtain ⟨added, whole, written⟩ := ih
      rw [List.cons_append]
      cases solid : isBlank first with
      | true => exact ⟨added, by rw [collapse_cons_blank solid, collapse_cons_blank solid, whole], written⟩
      | false =>
          rw [collapse_cons_solid solid, collapse_cons_solid solid]
          by_cases wordless : collapse rest = []
          · refine ⟨spaceBefore (rest ++ tail) ++ added, ?_, ?_⟩
            · simp [whole, wordless, spaceBefore]
            · intro char member
              rcases List.mem_append.1 member with space | later
              · exact .inl (eq_of_mem_spaceBefore space)
              · exact written char later
          · have nonempty : rest ≠ [] := by
              rintro rfl
              exact wordless rfl
            have head : (rest ++ tail).head? = rest.head? := List.head?_append_of_ne_nil rest nonempty
            exact ⟨added, by simp [whole, wordless, spaceBefore, head], written⟩

end SourceBaseline.Text
