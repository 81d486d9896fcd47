import SourceBaseline.Exclude

/-!
# Patterns that match their own text

A text without classes, choices and escapes can be read as a pattern, and the pattern matches the
text: a wildcard matches itself, and two stars that stand for directories match the name that they
spell. `exists_parse?_of_tame` follows the reader character by character.
-/

set_option autoImplicit false

namespace SourceBaseline.Glob

/-- Whether the character, as part of a pattern, can match itself. -/
def isTame (char : Char) : Bool :=
  char ≠ '[' && char ≠ '\x7b' && char ≠ '\x7d' && char ≠ '\\'

def encode (text : List Char) : List UInt8 :=
  text.flatMap String.utf8EncodeChar

theorem encode_append (first second : List Char) :
    encode (first ++ second) = encode first ++ encode second :=
  List.flatMap_append

/-- The parts of a branch, the last one first, match a text one after another. -/
inductive Spells : List Token → List UInt8 → Prop where
  | nil : Spells [] []
  | cons {token branch left right} :
      Spells branch left → Matches token.glob right → Spells (token :: branch) (left ++ right)

/-- The part that was read last ends at a separator, so that two stars may be folded into it. -/
inductive Folds : List Token → Prop where
  | leading : Folds [.leading]
  | middle {rest} : Folds (.middle :: rest)
  | separator {rest} : Folds (.fixed slashGlob :: rest)

/-- The reader has come to the end of the text, and what it has read matches the text. Stars that may
turn out to be two stars are not among the parts yet. -/
inductive Reads : Draft → List Char → Prop where
  | plain {branch previous text} :
      Spells branch (encode text) → (previous = some '/' → Folds branch) →
      Reads ⟨branch, [], [], previous, .plain⟩ text
  | star {branch before text} :
      Spells branch (encode text) → (before = some '/' → Folds branch) →
      Reads ⟨branch, [], [], some '*', .star before⟩ (text ++ ['*'])
  | doubleStar {branch before text} :
      Spells branch (encode text) → (before = some '/' → Folds branch) →
      Reads ⟨branch, [], [], some '*', .doubleStar before⟩ (text ++ ['*', '*'])

variable {branch : List Token} {token : Token} {draft : Draft} {text : List Char} {char : Char}
  {left inner : List UInt8} {previous : Option Char} {mode : Mode}

/-! ## Parts of a pattern -/

theorem matches_single (byte : UInt8) : Matches (.byte (.single byte)) [byte] :=
  .byte (by simp [ByteClass.single, ByteClass.contains])

theorem matches_literal (char : Char) : Matches (literal char) (String.utf8EncodeChar char) := by
  have further : ∀ (bytes : List UInt8) {glob : Glob} {before : List UInt8}, Matches glob before →
      Matches (bytes.foldl (fun glob byte => .both glob (.byte (.single byte))) glob)
        (before ++ bytes) := by
    intro bytes
    induction bytes with
    | nil =>
        intro glob before matched
        rwa [List.append_nil]
    | cons byte rest ih =>
        intro glob before matched
        rw [List.append_cons]
        exact ih (.both matched (matches_single byte))
  unfold literal
  cases String.utf8EncodeChar char with
  | nil => exact .empty
  | cons first rest => exact further rest (matches_single first)

theorem sequence_concat (tokens : List Token) (token : Token) :
    sequence (tokens ++ [token]) =
      if tokens = [] then token.glob else .both (sequence tokens) token.glob := by
  cases tokens with
  | nil => rfl
  | cons first rest => simp [sequence, List.foldl_append]

theorem Spells.eq_nil (spells : Spells [] left) : left = [] := by
  cases spells
  rfl

theorem Spells.matches (spells : Spells branch left) : Matches (sequence branch.reverse) left := by
  induction spells with
  | nil => exact .empty
  | cons before matched ih =>
      rw [List.reverse_cons, sequence_concat]
      split
      next none =>
        rw [List.reverse_eq_nil_iff] at none
        subst none
        cases before
        exact matched
      next => exact .both ih matched

theorem Spells.push (spells : Spells branch (encode text))
    (matched : Matches token.glob (String.utf8EncodeChar char)) :
    Spells (token :: branch) (encode (text ++ [char])) := by
  rw [encode_append]
  exact .cons spells (by simpa [encode] using matched)

theorem matches_run_stars (count : Nat) : Matches .run (encode (List.replicate count '*')) := by
  apply Matches.run
  simp [encode, List.mem_flatMap, String.utf8EncodeChar, slash]

/-! ## Two stars after a separator -/

theorem fold_eq : draft.fold token = { draft with branch := (draft.fold token).branch } := by
  unfold Draft.fold
  split <;> rfl

/-- Two stars between separators are folded into the part that ended at the first of them. -/
theorem Folds.middle_of (draft : Draft) (folds : Folds draft.branch)
    (spells : Spells draft.branch left) (inner : List UInt8) :
    Spells (draft.fold .middle).branch (left ++ (inner ++ [slash])) ∧
      Folds (draft.fold .middle).branch := by
  obtain ⟨branch, outer, groups, previous, mode⟩ := draft
  have separator : Matches slashGlob [slash] := matches_single slash
  dsimp only at folds spells
  -- The part that is replaced may itself be two stars, whose separator then belongs to the middle.
  cases folds with
  | leading =>
      refine ⟨?_, .leading⟩
      cases spells with
      | @cons _ _ first second before _ =>
          cases before
          have whole : Matches (Token.glob .leading) (second ++ inner ++ [slash]) :=
            .right (.both .anything separator)
          rw [List.append_assoc] at whole
          rw [List.nil_append]
          exact Spells.nil.cons whole
  | middle =>
      refine ⟨?_, .middle⟩
      cases spells with
      | cons before matched =>
          rw [List.append_assoc]
          apply Spells.cons before
          cases matched with
          | left matched =>
              rw [← List.append_assoc]
              exact .right (.both (.both matched .anything) separator)
          | right matched =>
              cases matched with
              | @both _ _ _ right opened _ =>
                  cases opened with
                  | @both _ _ first second opened _ =>
                      have whole := Matches.both
                        (.both opened (@Matches.anything (second ++ (right ++ inner)))) separator
                      rw [List.append_assoc] at whole
                      exact .right (by simpa using whole)
  | separator =>
      refine ⟨?_, .middle⟩
      cases spells with
      | cons before matched =>
          rw [List.append_assoc]
          apply Spells.cons before
          rw [← List.append_assoc]
          exact .right (.both (.both matched .anything) separator)

/-- Two stars at the end are folded into the part that ended at the separator before them. -/
theorem Folds.trailing_of (draft : Draft) (folds : Folds draft.branch)
    (spells : Spells draft.branch left) (inner : List UInt8) :
    let tokens := (draft.fold .trailing).branch.reverse
    Matches (if tokens = [.leading] then .anything else sequence tokens) (left ++ inner) := by
  obtain ⟨branch, outer, groups, previous, mode⟩ := draft
  dsimp only at folds spells
  intro tokens
  split
  next => exact .anything
  next several =>
    cases folds with
    | leading => exact absurd rfl several
    | middle =>
        cases spells with
        | cons before matched =>
            rw [List.append_assoc]
            refine Spells.matches (.cons before ?_)
            cases matched with
            | left matched => exact .both matched .anything
            | right matched =>
                cases matched with
                | both opened _ =>
                    cases opened with
                    | both opened _ =>
                        rw [List.append_assoc, List.append_assoc]
                        exact .both opened .anything
    | separator =>
        cases spells with
        | cons before matched =>
            rw [List.append_assoc]
            exact Spells.matches (.cons before (.both matched .anything))

/-! ## The reader -/

theorem reads_plainStep (spells : Spells branch (encode text))
    (folds : previous = some '/' → Folds branch) (tame : isTame char = true) :
    ∃ next, Draft.plainStep? ⟨branch, [], [], previous, mode⟩ char = some next ∧
      Reads next (text ++ [char]) := by
  unfold Draft.plainStep?
  split
  next => exact ⟨_, rfl, .plain (spells.push (.byte (by decide))) nofun⟩
  next => exact ⟨_, rfl, .star spells folds⟩
  next => cases tame
  next => cases tame
  next => cases tame
  next => exact ⟨_, rfl, .plain (spells.push (matches_literal ',')) nofun⟩
  next => cases tame
  next =>
    refine ⟨_, rfl, .plain (spells.push (matches_literal char)) ?_⟩
    rintro ⟨⟩
    exact .separator

theorem Reads.step (reads : Reads draft text) (tame : isTame char = true) :
    ∃ next, draft.step? char = some next ∧ Reads next (text ++ [char]) := by
  have run : ∀ {branch : List Token} {text : List Char} (count : Nat),
      Spells branch (encode text) →
      Spells (.fixed .run :: branch) (encode (text ++ List.replicate count '*')) := by
    intro branch text count spells
    rw [encode_append]
    exact .cons spells (matches_run_stars count)
  cases reads with
  | plain spells folds => exact reads_plainStep spells folds tame
  | @star branch before text spells folds =>
      unfold Draft.step?
      dsimp only
      split
      next same =>
        subst same
        rw [List.append_assoc]
        exact ⟨_, rfl, .doubleStar spells folds⟩
      next => exact reads_plainStep (run 1 spells) nofun tame
  | @doubleStar branch before text spells folds =>
      have onward : ∃ next,
          Draft.plainStep? ⟨.fixed .run :: branch, [], [], some '*', .doubleStar before⟩ char =
              some next ∧ Reads next (text ++ ['*', '*'] ++ [char]) :=
        reads_plainStep (run 2 spells) nofun tame
      unfold Draft.step? Draft.doubleStarStep?
      dsimp only
      split
      next none =>
        subst none
        split
        next same =>
          subst same
          -- The stars come first, and the separator after them makes them match at any depth.
          refine ⟨_, rfl, .plain ?_ fun _ => .leading⟩
          rw [encode_append, encode_append, spells.eq_nil, List.nil_append]
          have whole : Matches (Token.glob .leading) (encode ['*', '*'] ++ encode ['/']) :=
            .right (.both .anything (matches_single slash))
          exact Spells.nil.cons whole
        next => exact onward
      next =>
        split
        next => exact onward
        next loose =>
          split
          next choice => simp [Draft.branchCount] at choice
          next =>
            split
            next same =>
              subst same
              -- The stars stand between two separators.
              have separated : before = some '/' := by
                simpa [Draft.sticksTo, Draft.branchCount] using loose
              refine ⟨_, rfl, ?_⟩
              rw [fold_eq]
              obtain ⟨folded, foldsThen⟩ := Folds.middle_of ⟨branch, [], [], some '/', .plain⟩
                (folds separated) spells (encode ['*', '*'])
              refine .plain ?_ fun _ => foldsThen
              rw [encode_append, encode_append, List.append_assoc]
              exact folded
            next => exact onward

theorem Reads.finish (reads : Reads draft text) :
    ∃ tokens, draft.finish? = some tokens ∧
      Matches (if tokens = [.leading] then .anything else sequence tokens) (encode text) := by
  have spelled : ∀ {branch : List Token} {text : List Char}, Spells branch (encode text) →
      Matches (if branch.reverse = [.leading] then .anything else sequence branch.reverse)
        (encode text) := by
    intro branch text spells
    split
    next => exact .anything
    next => exact spells.matches
  cases reads with
  | plain spells _ => exact ⟨_, rfl, spelled spells⟩
  | star spells _ =>
      refine ⟨_, rfl, spelled ?_⟩
      rw [encode_append]
      exact spells.cons (matches_run_stars 1)
  | @doubleStar branch before text spells folds =>
      unfold Draft.finish?
      dsimp only
      rw [if_neg (by simp)]
      split
      next => exact ⟨_, rfl, .anything⟩
      next =>
        split
        next =>
          refine ⟨_, rfl, spelled ?_⟩
          rw [encode_append]
          exact spells.cons (matches_run_stars 2)
        next loose =>
          have separated : before = some '/' := by
            simpa [Draft.sticksTo, Draft.branchCount] using loose
          refine ⟨_, rfl, ?_⟩
          rw [encode_append]
          exact Folds.trailing_of _ (folds separated) spells _

/-- A text without classes, choices and escapes is a pattern that matches the text. -/
theorem exists_parse?_of_tame (tame : ∀ char ∈ text, isTame char = true) :
    ∃ glob, parse? text = some glob ∧ Matches glob (encode text) := by
  have onward : ∀ {draft : Draft} {before : List Char}, Reads draft before →
      ∃ last, text.foldlM Draft.step? draft = some last ∧ Reads last (before ++ text) := by
    induction text with
    | nil =>
        intro draft before reads
        exact ⟨draft, rfl, by rwa [List.append_nil]⟩
    | cons char rest ih =>
        intro draft before reads
        obtain ⟨next, stepped, readsNext⟩ := reads.step (tame char (.head _))
        obtain ⟨last, read, readsLast⟩ := ih (fun other member => tame other (.tail _ member)) readsNext
        refine ⟨last, ?_, by rwa [List.append_cons]⟩
        rw [List.foldlM_cons, stepped]
        exact read
  have begins : Reads .start [] := .plain .nil nofun
  obtain ⟨last, read, reads⟩ := onward begins
  obtain ⟨tokens, finished, matched⟩ := reads.finish
  refine ⟨_, ?_, matched⟩
  rw [parse?, read, Option.bind_some, finished]
  rfl

end SourceBaseline.Glob
