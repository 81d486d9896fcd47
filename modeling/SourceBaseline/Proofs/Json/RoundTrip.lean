import SourceBaseline.Json.Parser
import SourceBaseline.Json.Printer

/-!
# What is printed reads back

A string reads back from its escaped form whatever characters it holds, a number from its digits,
and an orderly value from its lines. The readers stop where the printed form ends.
-/

set_option autoImplicit false

namespace SourceBaseline.Json

/-! ## Strings -/

theorem hexQuad?_hexDigit : ∀ unit < 32,
    hexQuad? '0' '0' (hexDigit (unit / 16)) (hexDigit unit) = some unit := by
  decide

/-- The letter of a short escape stands for the escaped character and starts no longer escape. -/
theorem unescape?_of_shortEscape? {char letter : Char} (escaped : shortEscape? char = some letter) :
    unescape? letter = some char ∧ letter ≠ 'u' := by
  unfold shortEscape? at escaped
  repeat' split at escaped
  all_goals cases escaped
  all_goals subst_vars
  all_goals decide

theorem readUnits?_printChar (char : Char) (rest : List Char) :
    readUnits? (printChar char ++ rest) =
      (readUnits? rest).map fun (units, after) => (char.toNat :: units, after) := by
  unfold printChar
  split
  next letter escaped =>
    obtain ⟨meaning, other⟩ := unescape?_of_shortEscape? escaped
    rw [List.cons_append, List.cons_append, List.nil_append, readUnits?]
    · rw [meaning]
      rfl
    · intro first second third fourth after same
      exact absurd same other
  next plain =>
    split
    next control =>
      simp only [List.cons_append, List.nil_append, readUnits?, hexQuad?_hexDigit char.toNat control,
        Option.bind_some]
    next printable =>
      have quote : char ≠ '"' := by
        rintro rfl
        exact absurd plain (by decide)
      have backslash : char ≠ '\\' := by
        rintro rfl
        exact absurd plain (by decide)
      rw [List.cons_append, List.nil_append, readUnits?]
      · rw [if_neg (by simp [backslash, printable])]
      all_goals simp [quote, backslash]

theorem readUnits?_flatMap_printChar (text rest : List Char) :
    readUnits? (text.flatMap printChar ++ '"' :: rest) = some (text.map Char.toNat, rest) := by
  induction text with
  | nil => rfl
  | cons char more ih =>
      rw [List.flatMap_cons, List.append_assoc, readUnits?_printChar, ih]
      rfl

theorem not_isSurrogate (char : Char) :
    isHighSurrogate char.toNat = false ∧ isLowSurrogate char.toNat = false := by
  have code : char.toNat = char.val.toNat := rfl
  unfold isHighSurrogate isLowSurrogate
  rcases char.valid with below | ⟨above, _⟩
  · constructor <;> simp <;> omega
  · constructor <;> simp <;> omega

theorem joinUnits?_map_toNat (text : List Char) : joinUnits? (text.map Char.toNat) = some text := by
  induction text with
  | nil => rfl
  | cons char more ih =>
      obtain ⟨high, low⟩ := not_isSurrogate char
      cases more with
      | nil => simp [joinUnits?, high, low]
      | cons next others =>
          rw [List.map_cons] at ih
          simp only [List.map_cons, joinUnits?, high, low, ih]
          simp

theorem printString_some (text : String) :
    printString (some text) = '"' :: (text.toList.flatMap printChar ++ ['"']) :=
  rfl

theorem readString?_print (text : String) (rest : List Char) :
    readString? (text.toList.flatMap printChar ++ '"' :: rest) = some (some text, rest) := by
  rw [readString?, readUnits?_flatMap_printChar]
  simp [joinUnits?_map_toNat]

/-! ## Numbers -/

/-- Text that can follow a printed value: a comma or a line feed stands first in it. -/
inductive Follows : List Char → Prop
  | comma {more} : Follows (',' :: more)
  | lineFeed {more} : Follows ('\n' :: more)

section Numbers

variable {value : Nat} {rest : List Char}

theorem isDigit_toDigits (value : Nat) : ∀ digit ∈ Nat.toDigits 10 value, digit.isDigit = true := by
  intro digit member
  exact Nat.isDigit_of_mem_toDigits (by decide) (by decide) member

theorem exists_toDigits_eq (value : Nat) :
    ∃ first more, Nat.toDigits 10 value = first :: more ∧ first.isDigit = true := by
  obtain ⟨first, more, digits⟩ := List.exists_cons_of_ne_nil (Nat.toDigits_ne_nil (b := 10) (n := value))
  exact ⟨first, more, digits, isDigit_toDigits value first (by simp [digits])⟩

theorem isSpace_of_isDigit {char : Char} (digit : char.isDigit = true) : isSpace char = false := by
  unfold isSpace
  simp only [Bool.or_eq_false_iff, decide_eq_false_iff_not]
  refine ⟨⟨⟨?_, ?_⟩, ?_⟩, ?_⟩
  all_goals
    rintro rfl
    exact absurd digit (by decide)

theorem head?_toDigits (positive : 0 < value) : (Nat.toDigits 10 value).head? ≠ some '0' := by
  induction value using Nat.strongRecOn with
  | ind value ih =>
      rw [Nat.toDigits_eq_if (by decide)]
      split
      next => simp [Nat.ne_of_gt positive]
      next large =>
        rw [List.head?_append, Option.or_of_isSome (by simp [Nat.toDigits_ne_nil])]
        exact ih (value / 10) (by omega) (by omega)

theorem appendDigits_eq {significand : Nat} {digits : List Char}
    (fits : Nat.ofDigitChars 10 digits significand ≤ JsonNumber.significandLimit) :
    appendDigits significand digits = (Nat.ofDigitChars 10 digits significand, 0) := by
  induction digits generalizing significand with
  | nil => rfl
  | cons digit more ih =>
      have longer : significand * 10 + digitValue digit =
          10 * significand + (digit.toNat - '0'.toNat) := by
        rw [digitValue, Nat.mul_comm]
      rw [Nat.ofDigitChars_cons] at fits ⊢
      rw [appendDigits, longer, if_pos, ih fits]
      rw [Nat.ofDigitChars_eq_ofDigitChars_zero] at fits
      have scale : 0 < 10 ^ more.length := Nat.pow_pos (by decide)
      exact Nat.le_trans (Nat.le_mul_of_pos_left _ scale) (Nat.le_of_add_right_le fits)

theorem spanDigits_toDigits (value : Nat) (follows : Follows rest) :
    spanDigits (Nat.toDigits 10 value ++ rest) = (Nat.toDigits 10 value, rest) := by
  have digits := isDigit_toDigits value
  unfold spanDigits
  rw [List.takeWhile_append_of_pos digits, List.dropWhile_append_of_pos digits]
  cases follows <;> simp

theorem readNumber?_toDigits (fits : value ≤ JsonNumber.significandLimit) (follows : Follows rest) :
    readNumber? (Nat.toDigits 10 value ++ rest) = some (.natural value, rest) := by
  have unsigned : readUnsigned? false (Nat.toDigits 10 value ++ rest) =
      some (.natural value, rest) := by
    have noZero : ¬ ((Nat.toDigits 10 value).head? = some '0' ∧ Nat.toDigits 10 value ≠ ['0']) := by
      rcases Nat.eq_zero_or_pos value with rfl | positive
      · simp
      · exact fun zero => head?_toDigits positive zero.1
    have whole : appendDigits 0 (Nat.toDigits 10 value) = (value, 0) := by
      have back : Nat.ofDigitChars 10 (Nat.toDigits 10 value) 0 = value :=
        Nat.ofDigitChars_ten_toDigits
      rw [appendDigits_eq (by rwa [back]), back]
    have fraction : readFraction? rest = some ([], rest) := by cases follows <;> rfl
    have exponent : readExponent? rest = some (none, rest) := by cases follows <;> rfl
    rw [readUnsigned?, spanDigits_toDigits value follows]
    simp [noZero, fraction, exponent, numberOf, whole]
  rw [readNumber?]
  · exact unsigned
  · intro more same
    obtain ⟨first, others, digits, digit⟩ := exists_toDigits_eq value
    rw [digits, List.cons_append] at same
    rw [(List.cons.inj same).1] at digit
    exact absurd digit (by decide)

end Numbers

/-! ## Values -/

/-- Values as documents hold them: every string stands for a text, every number is a natural one
of 64 bits, the members of an object stand in name order, and nothing is nested deeper than
`depth`. -/
inductive Orderly : Nat → Json → Prop
  | null {depth} : Orderly depth .null
  | boolean {depth value} : Orderly depth (.boolean value)
  | number {depth value} :
      value ≤ JsonNumber.significandLimit → Orderly depth (ofNat value)
  | string {depth text} : Orderly depth (ofString text)
  | array {depth items} :
      (∀ item ∈ items, Orderly depth item) → Orderly (depth + 1) (.array items)
  | object {depth members} :
      List.Pairwise (fun left right => left.1 < right.1) members →
      (∀ member ∈ members, Orderly depth member.2) → Orderly (depth + 1) (ofMembers members)

/-- Wherever the value is printed, reading gives it back and stops behind it. A measure above twice
the number of possible ends in its text is enough. -/
def ReadsBack (json : Json) : Prop :=
  ∀ (level measure : Nat) (rest : List Char), Follows rest →
    2 * (print level json).countP isEnd < measure →
    readValue? measure (print level json ++ rest) = some (json, rest)

theorem skipSpace_newLine (level : Nat) (text : List Char) :
    skipSpace (newLine level ++ text) = skipSpace text := by
  have blank : ∀ char ∈ newLine level, isSpace char = true := by
    intro char member
    rcases List.mem_cons.1 member with rfl | inside
    · rfl
    · rw [List.eq_of_mem_replicate inside]
      rfl
  rw [skipSpace, List.dropWhile_append_of_pos blank, skipSpace]

theorem skipSpace_cons (first : Char) {more : List Char} (visible : isSpace first = false) :
    skipSpace (first :: more) = first :: more := by
  rw [skipSpace, List.dropWhile_cons_of_neg (by simp [visible])]

theorem readValue?_skipSpace {text other : List Char} (same : skipSpace text = skipSpace other)
    (measure : Nat) : readValue? measure text = readValue? measure other := by
  cases measure with
  | zero => rfl
  | succ measure => rw [readValue?, readValue?, same]

theorem readItems?_skipSpace {text other : List Char} (same : skipSpace text = skipSpace other)
    (measure : Nat) : readItems? measure text = readItems? measure other := by
  cases measure with
  | zero => rfl
  | succ measure => rw [readItems?, readItems?, readValue?_skipSpace same]

theorem readMembers?_skipSpace {text other : List Char} (same : skipSpace text = skipSpace other)
    (measure : Nat) : readMembers? measure text = readMembers? measure other := by
  cases measure with
  | zero => rfl
  | succ measure => rw [readMembers?, readMembers?, same]

/-- A printed value starts with a character that is no blank and ends nothing. -/
theorem exists_print_eq {depth : Nat} {json : Json} (orderly : Orderly depth json) (level : Nat) :
    ∃ first more, print level json = first :: more ∧ isSpace first = false ∧ first ≠ ']' := by
  cases orderly with
  | null => exact ⟨_, _, rfl, rfl, by decide⟩
  | @boolean _ value => cases value <;> exact ⟨_, _, rfl, rfl, by decide⟩
  | @number _ value _ =>
      obtain ⟨first, more, digits, digit⟩ := exists_toDigits_eq value
      refine ⟨first, more, digits, isSpace_of_isDigit digit, ?_⟩
      rintro rfl
      exact absurd digit (by decide)
  | string => exact ⟨_, _, rfl, rfl, by decide⟩
  | @array _ items _ => cases items <;> exact ⟨_, _, rfl, rfl, by decide⟩
  | @object _ members _ _ => cases members <;> exact ⟨_, _, rfl, rfl, by decide⟩

theorem follows_printItems (level outer : Nat) (items : List Json) (after : List Char) :
    Follows (printItems level items ++ (newLine outer ++ ']' :: after)) := by
  cases items with
  | nil => exact .lineFeed
  | cons => exact .comma

theorem readItems?_print (level outer : Nat) {measure : Nat} {item : Json} {items : List Json}
    (after : List Char) (readsBack : ∀ one ∈ item :: items, ReadsBack one)
    (enough : 2 * (print level item ++ printItems level items).countP isEnd + 1 < measure) :
    readItems? measure (print level item ++ (printItems level items ++ (newLine outer ++ ']' :: after))) =
      some (item :: items, after) := by
  obtain ⟨measure, rfl⟩ : ∃ less, measure = less + 1 := ⟨measure - 1, by omega⟩
  have here := readsBack item (.head _) level measure _ (follows_printItems level outer items after)
    (by rw [List.countP_append] at enough; omega)
  rw [readItems?, here, Option.bind_some]
  induction items generalizing item measure with
  | nil => simp only [printItems, List.nil_append, skipSpace_newLine, skipSpace_cons ']' rfl]
  | cons next others ih =>
      rw [List.countP_append, printItems, List.countP_cons, if_pos (by rfl), List.append_assoc,
        List.countP_append] at enough
      obtain ⟨measure, rfl⟩ : ∃ less, measure = less + 1 := ⟨measure - 1, by omega⟩
      have there := readsBack next (.tail _ (.head _)) level measure _
        (follows_printItems level outer others after) (by rw [List.countP_append] at enough; omega)
      have later := ih (fun one member => readsBack one (.tail _ member)) measure (by omega) there
      simp only [printItems, List.cons_append, List.append_assoc, skipSpace_cons ',' rfl,
        readItems?_skipSpace (skipSpace_newLine level _)]
      rw [readItems?, there, Option.bind_some, later]
      rfl

theorem follows_printMembers (level outer : Nat) (members : List (Option String × Json))
    (after : List Char) :
    Follows (printMembers level members ++ (newLine outer ++ '\x7d' :: after)) := by
  cases members with
  | nil => exact .lineFeed
  | cons => exact .comma

theorem readMembers?_printString (name : String) (measure : Nat) (text : List Char) :
    readMembers? (measure + 1) (printString (some name) ++ (':' :: ' ' :: text)) =
      (readValue? measure text).bind fun (value, rest) =>
        match skipSpace rest with
        | '\x7d' :: after => some ([(some name, value)], after)
        | ',' :: after =>
            (readMembers? measure after).map fun (found, after) => ((some name, value) :: found, after)
        | _ => none := by
  have quoted : printString (some name) ++ (':' :: ' ' :: text) =
      '"' :: (name.toList.flatMap printChar ++ '"' :: ':' :: ' ' :: text) := by
    rw [printString_some, List.cons_append, List.append_assoc]
    rfl
  have gap : skipSpace (' ' :: text) = skipSpace text := by simp [skipSpace, isSpace]
  rw [quoted, readMembers?, skipSpace_cons '"' rfl]
  simp only [readString?_print, Option.bind_some, skipSpace_cons ':' rfl]
  exact congrArg (Option.bind · _) (readValue?_skipSpace gap _)

theorem readMembers?_print (level outer : Nat) {measure : Nat} {member : String × Json}
    {members : List (String × Json)} (after : List Char)
    (readsBack : ∀ one ∈ member :: members, ReadsBack one.2)
    (enough : 2 * (print level member.2 ++
      printMembers level (members.map fun one => (some one.1, one.2))).countP isEnd + 1 < measure) :
    readMembers? measure (printString (some member.1) ++ (':' :: ' ' :: (print level member.2 ++
        (printMembers level (members.map fun one => (some one.1, one.2)) ++
          (newLine outer ++ '\x7d' :: after))))) =
      some ((member :: members).map fun one => (some one.1, one.2), after) := by
  obtain ⟨measure, rfl⟩ : ∃ less, measure = less + 1 := ⟨measure - 1, by omega⟩
  have here := readsBack member (.head _) level measure _
    (follows_printMembers level outer (members.map fun one => (some one.1, one.2)) after)
    (by rw [List.countP_append] at enough; omega)
  rw [readMembers?_printString, here, Option.bind_some]
  induction members generalizing member measure with
  | nil => simp only [List.map_nil, printMembers, List.nil_append, skipSpace_newLine, skipSpace_cons '\x7d' rfl, List.map_cons]
  | cons next others ih =>
      rw [List.countP_append, List.map_cons, printMembers, List.countP_cons, if_pos (by rfl)] at enough
      simp only [List.append_assoc, List.countP_append] at enough
      obtain ⟨measure, rfl⟩ : ∃ less, measure = less + 1 := ⟨measure - 1, by omega⟩
      have there := readsBack next (.tail _ (.head _)) level measure _
        (follows_printMembers level outer (others.map fun one => (some one.1, one.2)) after)
        (by omega)
      have later := ih (fun one member => readsBack one (.tail _ member)) measure
        (by rw [List.countP_append]; omega) there
      simp only [List.map_cons, printMembers, List.cons_append, List.nil_append, List.append_assoc,
        skipSpace_cons ',' rfl, readMembers?_skipSpace (skipSpace_newLine level _)]
      rw [readMembers?_printString, there, Option.bind_some, later]
      rfl

theorem readValue?_digit {first : Char} {more : List Char} (digit : first.isDigit = true)
    (measure : Nat) :
    readValue? (measure + 1) (first :: more) =
      (readNumber? (first :: more)).map fun (found, after) => (.number found, after) := by
  rw [readValue?, skipSpace_cons first (isSpace_of_isDigit digit)]
  split
  case h_7 => rfl
  all_goals
    next same =>
    cases same
    exact absurd digit (by decide)

theorem readValue?_items {first : Char} {text more : List Char}
    (noEnd : first ≠ ']') (starts : skipSpace text = first :: more) (measure : Nat) :
    readValue? (measure + 1) ('[' :: text) =
      (readItems? measure (first :: more)).map fun (found, after) => (.array found, after) := by
  rw [readValue?, skipSpace_cons '[' rfl]
  simp only [starts]
  split
  next same => exact absurd (List.cons.inj same).1 noEnd
  next => rfl

theorem readValue?_members {text more : List Char} (starts : skipSpace text = '"' :: more)
    (measure : Nat) :
    readValue? (measure + 1) ('\x7b' :: text) =
      (readMembers? measure ('"' :: more)).map fun (found, after) => (.object found, after) := by
  rw [readValue?, skipSpace_cons '\x7b' rfl]
  simp only [starts]
  rfl

theorem readsBack_number {value : Nat} (fits : value ≤ JsonNumber.significandLimit) :
    ReadsBack (ofNat value) := by
  intro level measure rest follows enough
  obtain ⟨measure, rfl⟩ : ∃ less, measure = less + 1 := ⟨measure - 1, by omega⟩
  have number := readNumber?_toDigits fits follows
  obtain ⟨first, more, digits, digit⟩ := exists_toDigits_eq value
  change readValue? (measure + 1) (Nat.toDigits 10 value ++ rest) = some (ofNat value, rest)
  rw [digits, List.cons_append] at number ⊢
  rw [readValue?_digit digit, number]
  rfl

theorem readsBack_string (text : String) : ReadsBack (ofString text) := by
  intro level measure rest _ enough
  obtain ⟨measure, rfl⟩ : ∃ less, measure = less + 1 := ⟨measure - 1, by omega⟩
  change readValue? (measure + 1) (printString (some text) ++ rest) = some (ofString text, rest)
  rw [printString_some, List.cons_append, List.append_assoc, readValue?, skipSpace_cons '"' rfl]
  simp only [List.cons_append, List.nil_append, readString?_print, Option.map_some]
  rfl

theorem readsBack_array {depth : Nat} {items : List Json} (orderly : ∀ item ∈ items, Orderly depth item)
    (readsBack : ∀ item ∈ items, ReadsBack item) : ReadsBack (.array items) := by
  intro level measure rest _ enough
  obtain ⟨measure, rfl⟩ : ∃ less, measure = less + 1 := ⟨measure - 1, by omega⟩
  cases items with
  | nil => rfl
  | cons item items =>
      obtain ⟨first, more, begins, visible, noEnd⟩ :=
        exists_print_eq (orderly item (.head _)) (level + 1)
      have ends : 2 * (print (level + 1) item ++ printItems (level + 1) items).countP isEnd + 1 <
          measure := by
        simp only [print, List.countP_cons, List.countP_append] at enough ⊢
        simp [isEnd] at enough
        omega
      have read := readItems?_print (level + 1) level rest readsBack ends
      simp only [print, List.cons_append, List.append_assoc, List.nil_append]
      rw [begins, List.cons_append] at read ⊢
      rw [readValue?_items noEnd (by rw [skipSpace_newLine, skipSpace_cons first visible]), read]
      rfl

theorem readsBack_object {members : List (String × Json)}
    (readsBack : ∀ member ∈ members, ReadsBack member.2) : ReadsBack (ofMembers members) := by
  intro level measure rest _ enough
  obtain ⟨measure, rfl⟩ : ∃ less, measure = less + 1 := ⟨measure - 1, by omega⟩
  cases members with
  | nil => rfl
  | cons member members =>
      have ends : 2 * (print (level + 1) member.2 ++ printMembers (level + 1)
          (members.map fun one => (some one.1, one.2))).countP isEnd + 1 < measure := by
        simp only [ofMembers, List.map_cons, print, List.countP_cons, List.countP_append] at enough ⊢
        simp [isEnd] at enough
        omega
      have read := readMembers?_print (level + 1) level rest readsBack ends
      simp only [ofMembers, List.map_cons, print, List.cons_append, List.append_assoc, List.nil_append]
      rw [printString_some, List.cons_append] at read ⊢
      rw [readValue?_members (by rw [skipSpace_newLine, skipSpace_cons '"' rfl]), read]
      rfl

theorem readsBack_of_orderly {depth : Nat} {json : Json} (orderly : Orderly depth json) :
    ReadsBack json := by
  have leaf : ∀ {json : Json},
      (∀ level measure rest, readValue? (measure + 1) (print level json ++ rest) = some (json, rest)) →
        ReadsBack json := by
    intro json read level measure rest _ enough
    obtain ⟨measure, rfl⟩ : ∃ less, measure = less + 1 := ⟨measure - 1, by omega⟩
    exact read level measure rest
  induction orderly with
  | null => exact leaf fun _ _ _ => rfl
  | @boolean _ value => cases value <;> exact leaf fun _ _ _ => rfl
  | number fits => exact readsBack_number fits
  | string => exact readsBack_string _
  | array orderly ih => exact readsBack_array orderly ih
  | object _ _ ih => exact readsBack_object ih

/-- A document reads back as the value that it was printed from. -/
theorem parse?_pretty {depth : Nat} {json : Json} (orderly : Orderly depth json) :
    parse? (json.pretty ++ "\n") = some json := by
  have text : (json.pretty ++ "\n").toList = print 0 json ++ ['\n'] := by
    simp [pretty]
  rw [parse?, parseChars?, text, readsBack_of_orderly orderly 0 _ _ .lineFeed
    (by rw [List.countP_append]; omega)]
  rfl

/-! ## Soundness and order -/

theorem areSound_of_forall {depth : Nat} {items : List Json}
    (sound : ∀ item ∈ items, isSound depth item = true) : areSound depth items = true := by
  induction items with
  | nil => rfl
  | cons item rest ih =>
      rw [areSound, sound item (.head _), ih fun other member => sound other (.tail _ member)]
      rfl

theorem membersAreSound_of_forall {depth : Nat} {members : List (String × Json)}
    (sound : ∀ member ∈ members, isSound depth member.2 = true) :
    membersAreSound depth (members.map fun member => (some member.1, member.2)) = true := by
  induction members with
  | nil => rfl
  | cons member rest ih =>
      rw [List.map_cons, membersAreSound, sound member (.head _),
        ih fun other inside => sound other (.tail _ inside)]
      rfl

theorem isSound_of_orderly {depth : Nat} {json : Json} (orderly : Orderly depth json) :
    json.isSound depth = true := by
  induction orderly with
  | null => rfl
  | boolean => rfl
  | number => rfl
  | string => rfl
  | array _ ih => simp [isSound, areSound_of_forall ih]
  | object _ _ ih => simp [ofMembers, isSound, membersAreSound_of_forall ih]

theorem settleItems_eq {items : List Json} (settled : ∀ item ∈ items, settle item = item) :
    settleItems items = items := by
  induction items with
  | nil => rfl
  | cons item rest ih =>
      rw [settleItems, settled item (.head _), ih fun other member => settled other (.tail _ member)]

theorem settleMembers_eq {members : List (String × Json)}
    (settled : ∀ member ∈ members, settle member.2 = member.2) :
    settleMembers (members.map fun member => (some member.1, member.2)) = members := by
  induction members with
  | nil => rfl
  | cons member rest ih =>
      rw [List.map_cons, settleMembers, settled member (.head _),
        ih fun other inside => settled other (.tail _ inside)]

theorem settle_of_orderly {depth : Nat} {json : Json} (orderly : Orderly depth json) :
    json.settle = json := by
  induction orderly with
  | null => rfl
  | boolean => rfl
  | number => rfl
  | string => rfl
  | array _ ih => rw [settle, settleItems_eq ih]
  | object sorted _ ih =>
      rw [ofMembers, settle, settleMembers_eq ih, SortedMap.entries_ofList sorted]

end SourceBaseline.Json
