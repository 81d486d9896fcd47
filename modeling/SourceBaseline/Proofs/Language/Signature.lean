import Mathlib.Data.List.DropRight
import SourceBaseline.Proofs.Language.Declaration
import SourceBaseline.Proofs.Text.Words

/-!
# Signatures

The signature of a declaration is the normal form of its header. `signatureOf?_eq_iff` says which headers
share it: those of the same words, apart from marks and blanks at the end. So neither new white space nor a
mark at the end changes a signature, and everything else does.
-/

set_option autoImplicit false

namespace SourceBaseline

variable {header other front tail : List Char} {signature : String} {tokens : List (List Char)}

namespace Text

variable {drop : Char → Bool} {text : List Char}

theorem dropTrailing_append (dropped : ∀ char ∈ tail, drop char = true) :
    dropTrailing drop (text ++ tail) = dropTrailing drop text := by
  rw [dropTrailing, List.reverse_append, List.dropWhile_append_of_pos (by simpa using dropped), dropTrailing]

theorem dropTrailing_eq_self (kept : ∀ last ∈ text.getLast?, drop last = false) :
    dropTrailing drop text = text := by
  refine List.rdropWhile_eq_self_iff.2 fun nonempty => ?_
  simp [kept _ (List.getLast?_eq_some_getLast nonempty)]

/-- A text is what is kept of it, which ends in a character that is kept, and what is dropped. -/
theorem exists_append_dropTrailing (drop : Char → Bool) (text : List Char) :
    ∃ front tail, text = front ++ tail ∧ (∀ char ∈ tail, drop char = true) ∧
      ∀ last ∈ front.getLast?, drop last = false := by
  refine ⟨text.rdropWhile drop, text.rtakeWhile drop, ?_, fun _ => List.mem_rtakeWhile_imp, ?_⟩
  · exact List.rdropWhile_append_rtakeWhile.symm
  · intro last ends
    have nonempty : text.rdropWhile drop ≠ [] := by
      intro empty
      rw [empty] at ends
      cases ends
    rw [List.getLast?_eq_some_getLast nonempty, Option.mem_some_iff] at ends
    simpa [ends] using List.rdropWhile_last_not drop text nonempty

end Text

namespace Source

/-- The text of a declaration up to its body, or all of it without one. -/
def header? (source : Source) (node : SyntaxNode) (body : Option SyntaxNode) : Option (List Char) :=
  Text.slice? source.text node.start ((body.map SyntaxNode.start).getD node.stop)

/-- The characters that a signature does not end in. -/
def marks : List Char :=
  [':', '\x7b', '=', ';', ' ']

/-- Words with single spaces between them, the last of which ends in no mark. -/
structure IsSignature (signature : String) : Prop where
  nonempty : signature ≠ ""
  collapsed : Text.collapseWhitespace signature = signature
  ending : ∀ last ∈ signature.toList.getLast?, last ∉ marks

/-- The header is made up of these words and of blanks, and of marks and blanks after them. -/
def Says (tokens : List (List Char)) (header : List Char) : Prop :=
  ∃ front tail, header = front ++ tail ∧ Text.Spaced tokens front ∧
    ∀ char ∈ tail, char ∈ marks ∨ Text.isBlank char = true

theorem Says.isWord (said : Says tokens header) : ∀ word ∈ tokens, Text.IsWord word := by
  obtain ⟨_, _, _, spaced, _⟩ := said
  exact spaced.isWord

theorem isTrailingMark_iff {char : Char} : isTrailingMark char = true ↔ char ∈ marks := by
  simp [isTrailingMark, marks, or_assoc]

/-- What a header comes to, which may be nothing. -/
def settled (header : List Char) : List Char :=
  Text.dropTrailing isTrailingMark (Text.collapse header)

theorem signatureOf?_eq_nonempty? : signatureOf? header = nonempty? (settled header) := by
  unfold signatureOf? settled nonempty?
  split
  next empty => rw [empty, if_pos rfl]
  next nonempty => rw [if_neg nonempty]

/-- Marks and blanks that are written after a header do not change what it comes to. -/
theorem settled_append (padding : ∀ char ∈ tail, char ∈ marks ∨ Text.isBlank char = true) :
    settled (front ++ tail) = settled front := by
  obtain ⟨added, whole, written⟩ := Text.exists_collapse_append front tail
  rw [settled, whole, Text.dropTrailing_append, settled]
  intro char member
  rcases written char member with rfl | ⟨inTail, solid⟩
  · rfl
  · exact isTrailingMark_iff.2 ((padding char inTail).resolve_right (by simp [solid]))

theorem settled_of_words (said : Says tokens header) :
    settled header = Text.dropTrailing isTrailingMark ([' '].intercalate tokens) := by
  obtain ⟨front, tail, rfl, spaced, padding⟩ := said
  rw [settled_append padding, settled, Text.collapse_of_spaced spaced]

/-- Every header says some words, and comes to these words with single spaces between them. -/
theorem exists_says (header : List Char) :
    ∃ tokens, Says tokens header ∧ settled header = [' '].intercalate tokens ∧
      ∀ last ∈ (settled header).getLast?, last ∉ marks := by
  obtain ⟨front, tail, rfl, padding, ending⟩ :=
    Text.exists_append_dropTrailing (fun char => isTrailingMark char || Text.isBlank char) header
  simp only [Bool.or_eq_true, Bool.or_eq_false_iff, isTrailingMark_iff] at padding ending
  have spaced := Text.spaced_words front
  -- What is left ends in a character that is neither a mark nor blank, which collapsing keeps.
  have kept : ∀ last ∈ (Text.collapse front).getLast?, isTrailingMark last = false := by
    rcases List.eq_nil_or_concat front with rfl | ⟨before, char, rfl⟩
    · exact nofun
    · obtain ⟨plain, solid⟩ := ending char (by simp)
      rw [List.concat_eq_append, Text.getLast?_collapse_concat solid]
      rintro _ ⟨⟩
      exact plain
  have whole : settled (front ++ tail) = Text.collapse front := by
    rw [settled_append padding, settled, Text.dropTrailing_eq_self kept]
  refine ⟨Text.words front, ⟨front, tail, rfl, spaced, padding⟩, whole, ?_⟩
  rw [whole]
  intro last ends
  simp [← isTrailingMark_iff, kept last ends]

theorem signatureOf?_eq_some_iff :
    signatureOf? header = some signature ↔
      IsSignature signature ∧
        ∃ tokens, Says tokens header ∧ signature.toList = [' '].intercalate tokens := by
  rw [signatureOf?_eq_nonempty?, nonempty?_eq_some_iff]
  constructor
  · rintro ⟨solid, rfl⟩
    obtain ⟨tokens, said, spelled, ending⟩ := exists_says header
    refine ⟨⟨fun empty => solid ?_, ?_, by simpa using ending⟩, tokens, said, by simpa using spelled⟩
    · simpa using congrArg String.toList empty
    · rw [spelled, Text.collapseWhitespace, String.toList_ofList, Text.collapse,
        Text.words_intercalate said.isWord]
  · rintro ⟨normal, tokens, said, spelled⟩
    have whole : settled header = signature.toList := by
      rw [settled_of_words said, ← spelled]
      apply Text.dropTrailing_eq_self
      intro last ends
      simpa [← isTrailingMark_iff] using normal.ending last ends
    rw [whole, String.ofList_toList]
    exact ⟨fun empty => normal.nonempty (String.toList_injective empty), rfl⟩

/-- Headers have one signature just if they say the same words. -/
theorem signatureOf?_eq_iff :
    signatureOf? header = signatureOf? other ↔ ∃ tokens, Says tokens header ∧ Says tokens other := by
  simp only [signatureOf?_eq_nonempty?, nonempty?_injective.eq_iff]
  constructor
  · intro same
    obtain ⟨tokens, said, spelled, _⟩ := exists_says header
    obtain ⟨others, saidToo, spelledToo, _⟩ := exists_says other
    have equal : tokens = others := by
      rw [← Text.words_intercalate said.isWord, ← spelled, same, spelledToo,
        Text.words_intercalate saidToo.isWord]
    exact ⟨tokens, said, equal ▸ saidToo⟩
  · rintro ⟨tokens, said, saidToo⟩
    rw [settled_of_words said, settled_of_words saidToo]

/-- A signature is a normal form of the words of the header, which is what it depends on: two declarations
have one signature just if their headers say the same words, with whatever blanks between them and whatever
marks and blanks at the end. Collapsing a text again changes nothing. -/
theorem signature?_normal (source other : Source) (node place : SyntaxNode)
    (body block : Option SyntaxNode) :
    (∀ signature, source.signature? node body = some signature ↔
      IsSignature signature ∧ ∃ header tokens, source.header? node body = some header ∧
        Says tokens header ∧ signature.toList = [' '].intercalate tokens) ∧
    (∀ header otherHeader, source.header? node body = some header →
      other.header? place block = some otherHeader →
      (source.signature? node body = other.signature? place block ↔
        ∃ tokens, Says tokens header ∧ Says tokens otherHeader)) ∧
    ∀ text, Text.collapseWhitespace (Text.collapseWhitespace text) = Text.collapseWhitespace text := by
  have read : ∀ (source : Source) (node : SyntaxNode) (body : Option SyntaxNode),
      source.signature? node body = (source.header? node body).bind signatureOf? := fun _ _ _ => rfl
  refine ⟨fun signature => ?_, fun header otherHeader found foundToo => ?_, fun text => ?_⟩
  · rw [read, Option.bind_eq_some_iff]
    simp only [signatureOf?_eq_some_iff]
    constructor
    · rintro ⟨header, found, normal, tokens, said, spelled⟩
      exact ⟨normal, header, tokens, found, said, spelled⟩
    · rintro ⟨normal, header, tokens, found, said, spelled⟩
      exact ⟨header, found, normal, tokens, said, spelled⟩
  · rw [read, read, found, foundToo]
    exact signatureOf?_eq_iff
  · simp [Text.collapseWhitespace, Text.collapse_collapse]

end Source

/-- A function of Rust whose header takes two lines. -/
def spread : Source :=
  ⟨"a.rs", "fn f(a: u8)\n    -> u8 \x7b\x7d".toList⟩

def spreadFunction : SyntaxNode :=
  ⟨"function_item", true, none, 0, 24, [⟨"block", true, some "body", 22, 24, []⟩]⟩

/-- The same function without a body, with other white space and a mark at the end. -/
def terse : Source :=
  ⟨"a.rs", "fn f(a:\u00a0u8) -> u8 ;".toList⟩

def terseFunction : SyntaxNode :=
  ⟨"function_signature_item", true, none, 0, 20, []⟩

namespace Source

/-- Both functions have one signature, because their headers say the same words. -/
theorem signature?_normal_reformatted :
    spread.header? spreadFunction (spreadFunction.field? "body") =
        some "fn f(a: u8)\n    -> u8 ".toList ∧
      terse.header? terseFunction none = some "fn f(a:\u00a0u8) -> u8 ;".toList ∧
      spread.signature? spreadFunction (spreadFunction.field? "body") =
        terse.signature? terseFunction none := by
  have found : spread.header? spreadFunction (spreadFunction.field? "body") =
      some "fn f(a: u8)\n    -> u8 ".toList := by decide
  have foundToo : terse.header? terseFunction none = some "fn f(a:\u00a0u8) -> u8 ;".toList := by decide
  have spaced : Text.Spaced (Text.words "fn f(a: u8)\n    -> u8 ".toList) "fn f(a:\u00a0u8) -> u8 ".toList :=
    Text.words_eq_iff.1 (by decide)
  refine ⟨found, foundToo, ((signature?_normal ..).2.1 _ _ found foundToo).2
    ⟨Text.words "fn f(a: u8)\n    -> u8 ".toList, ?_, ?_⟩⟩
  · exact ⟨_, [], (List.append_nil _).symm, Text.spaced_words _, nofun⟩
  · exact ⟨_, [';'], by decide, spaced, List.forall_mem_singleton.2 (.inl (by simp [marks]))⟩

end Source

end SourceBaseline
