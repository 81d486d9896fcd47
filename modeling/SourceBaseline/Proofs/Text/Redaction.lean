import Mathlib.Data.List.Basic
import SourceBaseline.Text.Redaction

/-!
# Which paths are redacted

A path is recognized after some of the characters that end a path, and not after others. So of a list of
absolute paths nothing is left just if every separator ends in a blank or a quote. After any other
separator a path stays, although it would be redacted at the start of the text.
-/

set_option autoImplicit false

namespace SourceBaseline.Text

/-- A slash, followed by characters that do not end a path. -/
def IsRooted (path : List Char) : Prop :=
  ∃ rest, path = '/' :: rest ∧ ∀ char ∈ rest, endsPath char = false

instance : DecidablePred IsRooted := fun path =>
  decidable_of_iff (path.head? = some '/' ∧ path.tail.all (!endsPath ·) = true) (by
    cases path <;> simp [IsRooted])

/-- One or more characters, each of which ends a path. -/
def IsSeparator (separator : List Char) : Prop :=
  separator ≠ [] ∧ ∀ char ∈ separator, endsPath char = true

instance : DecidablePred IsSeparator := fun separator =>
  decidable_of_iff (separator ≠ [] ∧ separator.all endsPath = true) (by simp [IsSeparator])

/-- Whether a path that stands after the separator is recognized. -/
def Opens (separator : List Char) : Prop :=
  ∃ last ∈ separator.getLast?, opensPath last = true

instance : DecidablePred Opens := fun separator =>
  decidable_of_iff (separator.getLast?.any opensPath = true) (by simp [Opens, Option.any_eq_true])

/-- Paths, each with the separator before it. -/
abbrev Parts := List (List Char × List Char)

namespace Parts

def text (parts : Parts) : List Char :=
  parts.flatMap fun (separator, path) => separator ++ path

/-- The text in which a marker stands for each path. -/
def marked (parts : Parts) : List Char :=
  parts.flatMap fun (separator, _) => separator ++ pathMarker

/-- Every separator ends a path, and what follows it is one. -/
def Listed (parts : Parts) : Prop :=
  ∀ part ∈ parts, IsSeparator part.1 ∧ IsRooted part.2

instance : DecidablePred Listed :=
  fun parts => inferInstanceAs (Decidable (∀ part ∈ parts, IsSeparator part.1 ∧ IsRooted part.2))

end Parts

variable {char : Char} {separator path more : List Char} {parts : Parts}

theorem redactFrom_nil : redactFrom [] = [] := by
  rw [redactFrom.eq_def]

theorem redactFrom_cons (char : Char) (rest : List Char) :
    redactFrom (char :: rest) =
      if opensPath char ∧ rootLength rest ≠ 0 then char :: (pathMarker ++ redactFrom (afterPath rest))
      else char :: redactFrom rest := by
  rw [redactFrom.eq_def]

/-! ## Separators and paths -/

theorem isAlpha_of_endsPath (ends : endsPath char = true) : char.isAlpha = false := by
  have codes : ¬ (65 ≤ char.toNat ∧ char.toNat ≤ 90) ∧ ¬ (97 ≤ char.toNat ∧ char.toNat ≤ 122) := by
    simp only [endsPath, isQuote, Bool.or_eq_true, decide_eq_true_eq] at ends
    rcases ends with ((((blank | ((rfl | rfl) | rfl)) | rfl) | rfl) | rfl) | rfl
    · simp only [isBlank, Bool.or_eq_true, Bool.and_eq_true, decide_eq_true_eq] at blank
      omega
    all_goals decide
  apply Bool.eq_false_iff.2
  intro letter
  rcases (Bool.or_eq_true char.isUpper char.isLower).mp letter with upper | lower
  · exact codes.1 (of_decide_eq_true upper)
  · obtain ⟨least, greatest⟩ := (Bool.and_eq_true _ _).mp lower
    exact codes.2 ⟨of_decide_eq_true least, of_decide_eq_true greatest⟩

theorem rootLength_of_endsPath (ends : endsPath char = true) : rootLength (char :: more) = 0 := by
  unfold rootLength
  split
  next same =>
    cases same
    exact absurd ends (by decide)
  next same =>
    cases same
    rw [if_neg (by simp [isAlpha_of_endsPath ends])]
  next => rfl

theorem rootLength_of_isRooted (rooted : IsRooted path) : rootLength (path ++ more) = 1 := by
  obtain ⟨rest, rfl, _⟩ := rooted
  rfl

theorem afterPath_of_isRooted (rooted : IsRooted path)
    (ended : ∀ first ∈ more.head?, endsPath first = true) : afterPath (path ++ more) = more := by
  rw [afterPath, rootLength_of_isRooted rooted]
  obtain ⟨rest, rfl, inner⟩ := rooted
  rw [List.cons_append, List.drop_one, List.tail_cons, List.dropWhile_append_of_pos (by simpa using inner)]
  cases more with
  | nil => rfl
  | cons first others => rw [List.dropWhile_cons_of_neg (by simp [ended first rfl])]

/-- After a separator the path is replaced if the separator opens it, and is read on otherwise. -/
theorem redactFrom_separator (ends : IsSeparator separator) (rooted : IsRooted path)
    (ended : ∀ first ∈ more.head?, endsPath first = true) :
    (Opens separator →
      redactFrom (separator ++ (path ++ more)) = separator ++ pathMarker ++ redactFrom more) ∧
    (¬ Opens separator →
      redactFrom (separator ++ (path ++ more)) = separator ++ redactFrom (path ++ more)) := by
  obtain ⟨nonempty, ends⟩ := ends
  induction separator with
  | nil => exact absurd rfl nonempty
  | cons char rest ih =>
      rw [List.cons_append, redactFrom_cons]
      cases rest with
      | nil =>
          have opens : Opens [char] ↔ opensPath char = true := by simp [Opens]
          rw [opens, List.nil_append, rootLength_of_isRooted rooted, afterPath_of_isRooted rooted ended]
          constructor
          · intro opened
            rw [if_pos ⟨opened, by decide⟩]
            rfl
          · intro closed
            rw [if_neg fun both => closed both.1]
            rfl
      | cons next others =>
          have opens : Opens (char :: next :: others) ↔ Opens (next :: others) := by
            simp [Opens, List.getLast?_cons_cons]
          have further := ih (by simp) fun other member => ends other (.tail _ member)
          have none : rootLength (next :: others ++ (path ++ more)) = 0 :=
            rootLength_of_endsPath (ends next (.tail _ (.head _)))
          rw [opens, if_neg fun both => both.2 none]
          exact ⟨fun opened => congrArg _ (further.1 opened), fun closed => congrArg _ (further.2 closed)⟩

theorem Parts.Listed.ended (listed : parts.Listed) :
    ∀ first ∈ parts.text.head?, endsPath first = true := by
  cases parts with
  | nil => exact nofun
  | cons part others =>
      obtain ⟨separator, path⟩ := part
      obtain ⟨⟨nonempty, ends⟩, _⟩ := listed _ (.head _)
      obtain ⟨first, rest, rfl⟩ := List.exists_cons_of_ne_nil nonempty
      rintro _ ⟨⟩
      exact ends first (.head _)

theorem redactFrom_of_opens (listed : parts.Listed) (opens : ∀ part ∈ parts, Opens part.1) :
    redactFrom parts.text = parts.marked := by
  induction parts with
  | nil => exact redactFrom_nil
  | cons part others ih =>
      obtain ⟨separator, path⟩ := part
      obtain ⟨ends, rooted⟩ := listed _ (.head _)
      have later : Parts.Listed others := fun part member => listed part (.tail _ member)
      have step := (redactFrom_separator ends rooted later.ended).1 (opens _ (.head _))
      rw [ih later fun part member => opens part (.tail _ member)] at step
      simpa [Parts.text, Parts.marked] using step

theorem slash_not_mem_separator (ends : IsSeparator separator) : '/' ∉ separator :=
  fun member => absurd (ends.2 _ member) (by decide)

/-- The first path that is not opened keeps its slash. -/
theorem slash_mem_redactFrom_iff (listed : parts.Listed) :
    '/' ∈ redactFrom parts.text ↔ ∃ part ∈ parts, ¬ Opens part.1 := by
  induction parts with
  | nil => simp [Parts.text, redactFrom_nil]
  | cons part others ih =>
      obtain ⟨separator, path⟩ := part
      obtain ⟨ends, rooted⟩ := listed _ (.head _)
      have later : Parts.Listed others := fun part member => listed part (.tail _ member)
      have text : Parts.text ((separator, path) :: others) = separator ++ (path ++ Parts.text others) := by
        simp [Parts.text]
      have step := redactFrom_separator ends rooted later.ended
      rw [text]
      by_cases opened : Opens separator
      · have marker : '/' ∉ pathMarker := by decide
        rw [step.1 opened, List.mem_append, List.mem_append, ih later]
        simp [slash_not_mem_separator ends, marker, opened]
      · obtain ⟨rest, rfl, _⟩ := rooted
        rw [step.2 opened, List.cons_append, redactFrom_cons, if_neg fun both => absurd both.1 (by decide)]
        simp [opened]

theorem redactPaths_of_isRooted (rooted : IsRooted path) (listed : parts.Listed) :
    redactPaths (path ++ parts.text) = pathMarker ++ redactFrom parts.text := by
  rw [redactPaths, rootLength_of_isRooted rooted, afterPath_of_isRooted rooted listed.ended]
  exact if_pos (by decide)

/-- In a text that lists absolute paths, each is replaced if every separator ends in a character after
which a path is recognized. If one does not, a slash stays. -/
theorem sanitize_list (rooted : IsRooted path) (listed : parts.Listed) :
    ((∀ part ∈ parts, Opens part.1) →
      sanitize (.ofList (path ++ parts.text)) = .ofList (pathMarker ++ parts.marked)) ∧
    ('/' ∉ (sanitize (.ofList (path ++ parts.text))).toList ↔ ∀ part ∈ parts, Opens part.1) := by
  have redacted : (sanitize (.ofList (path ++ parts.text))).toList =
      pathMarker ++ redactFrom parts.text := by
    simp [sanitize, redactPaths_of_isRooted rooted listed]
  constructor
  · intro opens
    apply String.toList_injective
    rw [redacted, redactFrom_of_opens listed opens, String.toList_ofList]
  · have marker : '/' ∉ pathMarker := by decide
    rw [redacted, List.mem_append, slash_mem_redactFrom_iff listed]
    simp [marker]

/-- Blanks and quotes separate paths of which nothing is left, whatever stands before them and in the
paths. -/
theorem sanitize_list_mixed :
    sanitize "/home/a: /x(b=c,\"/" = "<path>: <path>,\"<path>" := by
  have rooted : IsRooted "/home/a".toList := by decide +kernel
  have listed : Parts.Listed [(": ".toList, "/x(b=c".toList), (",\"".toList, "/".toList)] := by
    decide +kernel
  exact (sanitize_list rooted listed).1 (by decide +kernel)

/-- After a comma the second path stays. -/
theorem sanitize_keeps_path :
    IsRooted "/a".toList ∧ Parts.Listed [([','], "/b".toList)] ∧
      "/a".toList ++ Parts.text [([','], "/b".toList)] = "/a,/b".toList ∧
      sanitize "/a,/b" = "<path>,/b" ∧ '/' ∈ (sanitize "/a,/b").toList := by
  decide +kernel

end SourceBaseline.Text
