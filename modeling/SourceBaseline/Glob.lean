/-!
# Globs

A glob is matched against the bytes of a whole path. `Glob.after` finds all places in a text that a
glob leads to from some others, in time proportional to the text, and `Glob.Matches` says
declaratively what a glob matches: `Glob.accepts_iff` ties the two.
-/

set_option autoImplicit false

namespace SourceBaseline

def slash : UInt8 := 47

/-- A set of bytes: those inside the spans, or those outside all of them. -/
structure ByteClass where
  negated : Bool
  spans : List (UInt8 × UInt8)
  deriving DecidableEq, Inhabited

namespace ByteClass

def contains (set : ByteClass) (byte : UInt8) : Bool :=
  set.spans.any (fun (first, last) => first ≤ byte && byte ≤ last) != set.negated

def single (byte : UInt8) : ByteClass := ⟨false, [(byte, byte)]⟩

def withoutSlash : ByteClass := ⟨true, [(slash, slash)]⟩

end ByteClass

/-- A pattern over bytes. `run` is any run of bytes without `/`, and `anything` is any text. -/
inductive Glob where
  | empty
  | byte (set : ByteClass)
  | run
  | anything
  | both (first second : Glob)
  | either (first second : Glob)
  deriving DecidableEq, Inhabited

namespace Glob

inductive Matches : Glob → List UInt8 → Prop where
  | empty : Matches .empty []
  | byte {set : ByteClass} {char : UInt8} : set.contains char = true → Matches (.byte set) [char]
  | run {text : List UInt8} : slash ∉ text → Matches .run text
  | anything {text : List UInt8} : Matches .anything text
  | both {first second : Glob} {left right : List UInt8} :
      Matches first left → Matches second right → Matches (.both first second) (left ++ right)
  | left {first second : Glob} {text : List UInt8} :
      Matches first text → Matches (.either first second) text
  | right {first second : Glob} {text : List UInt8} :
      Matches second text → Matches (.either first second) text

/-- The places in a text, before its first byte, between two bytes and after its last one, and which
of them are marked. -/
abbrev Marks := List Bool

/-- A place is named by what follows it: `rest` follows a marked place of `text`. -/
inductive Marked : List UInt8 → Marks → List UInt8 → Prop where
  | here {text : List UInt8} {marks : Marks} : Marked text (true :: marks) text
  | later {char : UInt8} {mark : Bool} {text rest : List UInt8} {marks : Marks} :
      Marked text marks rest → Marked (char :: text) (mark :: marks) rest

def startMarks (text : List UInt8) : Marks :=
  true :: text.map fun _ => false

/-- Mark the places after the first that a byte of the set leads to from a marked one. -/
def stepMarks (set : ByteClass) : List UInt8 → Marks → Marks
  | char :: text, mark :: marks => (mark && set.contains char) :: stepMarks set text marks
  | _, _ => []

/-- Mark every place that bytes which may pass lead to from a marked one. `reached` tells whether
such bytes lead to the first place. -/
def spreadMarks (passes : UInt8 → Bool) (reached : Bool) : List UInt8 → Marks → Marks
  | char :: text, mark :: marks =>
      (mark || reached) :: spreadMarks passes ((mark || reached) && passes char) text marks
  | [], mark :: _ => [mark || reached]
  | _, [] => []

def joinMarks : Marks → Marks → Marks :=
  List.zipWith (· || ·)

/-- The places that the pattern leads to from the marked ones. Each part of the pattern takes one
pass over the text, and no part is tried once there is no place left. -/
def after : Glob → List UInt8 → Marks → Marks
  | .empty, _, marks => marks
  | .byte set, text, marks => false :: stepMarks set text marks
  | .run, text, marks => spreadMarks (· ≠ slash) false text marks
  | .anything, text, marks => spreadMarks (fun _ => true) false text marks
  | .both first second, text, marks =>
      let middle := first.after text marks
      if middle.contains true then second.after text middle else middle
  | .either first second, text, marks =>
      joinMarks (first.after text marks) (second.after text marks)

def accepts (glob : Glob) (text : List UInt8) : Bool :=
  (glob.after text (startMarks text)).getLast? = some true

theorem length_stepMarks {set : ByteClass} {text : List UInt8} {marks : Marks}
    (aligned : marks.length = text.length + 1) :
    (stepMarks set text marks).length = text.length := by
  induction text generalizing marks with
  | nil => cases marks <;> simp [stepMarks]
  | cons char text ih =>
      cases marks with
      | nil => simp at aligned
      | cons mark marks => simpa [stepMarks] using ih (by simpa using aligned)

theorem length_spreadMarks {passes : UInt8 → Bool} {reached : Bool} {text : List UInt8}
    {marks : Marks} (aligned : marks.length = text.length + 1) :
    (spreadMarks passes reached text marks).length = text.length + 1 := by
  induction text generalizing marks reached with
  | nil =>
      cases marks with
      | nil => simp at aligned
      | cons mark marks => simp [spreadMarks]
  | cons char text ih =>
      cases marks with
      | nil => simp at aligned
      | cons mark marks => simpa [spreadMarks] using ih (by simpa using aligned)

theorem length_after {glob : Glob} {text : List UInt8} {marks : Marks}
    (aligned : marks.length = text.length + 1) :
    (glob.after text marks).length = text.length + 1 := by
  induction glob generalizing marks with
  | empty => exact aligned
  | byte set => simp [after, length_stepMarks aligned]
  | run => exact length_spreadMarks aligned
  | anything => exact length_spreadMarks aligned
  | both first second firstIH secondIH =>
      simp only [after]
      split
      · exact secondIH (firstIH aligned)
      · exact firstIH aligned
  | either first second firstIH secondIH =>
      simp [after, joinMarks, firstIH aligned, secondIH aligned]

theorem marked_cons_iff {char : UInt8} {mark : Bool} {text rest : List UInt8} {marks : Marks} :
    Marked (char :: text) (mark :: marks) rest ↔
      (mark = true ∧ rest = char :: text) ∨ Marked text marks rest := by
  constructor
  · intro marked
    cases marked with
    | here => exact .inl ⟨rfl, rfl⟩
    | later marked => exact .inr marked
  · rintro (⟨rfl, rfl⟩ | marked)
    · exact .here
    · exact .later marked

theorem marked_nil_iff {mark : Bool} {rest : List UInt8} {marks : Marks} :
    Marked [] (mark :: marks) rest ↔ mark = true ∧ rest = [] := by
  constructor
  · intro marked
    cases marked with
    | here => exact ⟨rfl, rfl⟩
  · rintro ⟨rfl, rfl⟩
    exact .here

theorem not_marked_nil {text rest : List UInt8} : ¬ Marked text [] rest := nofun

theorem marked_head_iff {mark : Bool} {text rest : List UInt8} {marks : Marks} :
    Marked text (mark :: marks) rest ↔
      (mark = true ∧ rest = text) ∨ Marked text (false :: marks) rest := by
  cases text with
  | nil => simp [marked_nil_iff]
  | cons char text => simp [marked_cons_iff]

theorem Marked.contains {text rest : List UInt8} {marks : Marks} (marked : Marked text marks rest) :
    true ∈ marks := by
  induction marked with
  | here => exact List.mem_cons_self
  | later _ ih => exact List.mem_cons_of_mem _ ih

theorem marked_startMarks_iff {text rest : List UInt8} :
    Marked text (startMarks text) rest ↔ rest = text := by
  have unmarked : ∀ text : List UInt8, ¬ Marked text (false :: text.map fun _ => false) rest := by
    intro text
    induction text with
    | nil => simp [marked_nil_iff]
    | cons char text ih =>
        rw [List.map_cons, marked_cons_iff]
        exact fun marked => ih (marked.resolve_left fun absurd => nomatch absurd.1)
  rw [startMarks, marked_head_iff]
  exact ⟨fun marked => (marked.resolve_right (unmarked text)).2, fun same => .inl ⟨rfl, same⟩⟩

theorem marked_stepMarks_iff {set : ByteClass} {text rest : List UInt8} {marks : Marks} :
    Marked text (false :: stepMarks set text marks) rest ↔
      ∃ char, set.contains char = true ∧ Marked text marks (char :: rest) := by
  induction text generalizing marks with
  | nil =>
      cases marks with
      | nil => simp [stepMarks, marked_nil_iff, not_marked_nil]
      | cons mark marks => simp [stepMarks, marked_nil_iff]
  | cons first text ih =>
      cases marks with
      | nil => simp [stepMarks, marked_cons_iff, not_marked_nil]
      | cons mark marks =>
          simp only [stepMarks, marked_cons_iff, Bool.false_eq_true, false_and, false_or]
          rw [marked_head_iff, ih]
          constructor
          · rintro (⟨both, rfl⟩ | ⟨char, inside, marked⟩)
            · rw [Bool.and_eq_true] at both
              exact ⟨first, both.2, .inl ⟨both.1, rfl⟩⟩
            · exact ⟨char, inside, .inr marked⟩
          · rintro ⟨char, inside, ⟨rfl, same⟩ | marked⟩
            · obtain ⟨rfl, rfl⟩ := List.cons.inj same
              exact .inl ⟨by simp [inside], rfl⟩
            · exact .inr ⟨char, inside, marked⟩

theorem marked_spreadMarks_iff {passes : UInt8 → Bool} {reached : Bool} {text rest : List UInt8}
    {marks : Marks} (aligned : marks.length = text.length + 1) :
    Marked text (spreadMarks passes reached text marks) rest ↔
      (reached = true ∧ ∃ consumed, (∀ char ∈ consumed, passes char = true) ∧
        text = consumed ++ rest) ∨
      ∃ consumed, (∀ char ∈ consumed, passes char = true) ∧
        Marked text marks (consumed ++ rest) := by
  -- `reached` says that a place further back is marked, with nothing in between that does not pass.
  induction text generalizing marks reached with
  | nil =>
      cases marks with
      | nil => simp at aligned
      | cons mark marks =>
          simp only [spreadMarks, marked_nil_iff, Bool.or_eq_true, List.append_eq_nil_iff,
            List.nil_eq_append_iff]
          constructor
          · rintro ⟨marked | reached, rfl⟩
            · exact .inr ⟨[], by simp, marked, rfl, rfl⟩
            · exact .inl ⟨reached, [], by simp, rfl, rfl⟩
          · rintro (⟨reached, _, _, _, rfl⟩ | ⟨_, _, marked, _, rfl⟩)
            · exact ⟨.inr reached, rfl⟩
            · exact ⟨.inl marked, rfl⟩
  | cons first text ih =>
      cases marks with
      | nil => simp at aligned
      | cons mark marks =>
          have shorter : marks.length = text.length + 1 := by simpa using aligned
          simp only [spreadMarks, marked_cons_iff, ih shorter, Bool.or_eq_true, Bool.and_eq_true]
          constructor
          · rintro (⟨marked | reached, rfl⟩ | ⟨⟨marked | reached, pass⟩, consumed, all, rfl⟩ |
              ⟨consumed, all, marked⟩)
            · exact .inr ⟨[], by simp, .inl ⟨marked, rfl⟩⟩
            · exact .inl ⟨reached, [], by simp, rfl⟩
            · exact .inr ⟨first :: consumed, by simpa [pass] using all, .inl ⟨marked, rfl⟩⟩
            · exact .inl ⟨reached, first :: consumed, by simpa [pass] using all, rfl⟩
            · exact .inr ⟨consumed, all, .inr marked⟩
          · rintro (⟨reached, consumed, all, same⟩ | ⟨consumed, all, ⟨marked, same⟩ | marked⟩)
            · cases consumed with
              | nil => exact .inl ⟨.inr reached, same.symm⟩
              | cons head consumed =>
                  obtain ⟨rfl, rfl⟩ := List.cons.inj same
                  rw [List.forall_mem_cons] at all
                  exact .inr (.inl ⟨⟨.inr reached, all.1⟩, consumed, all.2, rfl⟩)
            · cases consumed with
              | nil => exact .inl ⟨.inl marked, same⟩
              | cons head consumed =>
                  obtain ⟨rfl, rfl⟩ := List.cons.inj same
                  rw [List.forall_mem_cons] at all
                  exact .inr (.inl ⟨⟨.inl marked, all.1⟩, consumed, all.2, rfl⟩)
            · exact .inr (.inr ⟨consumed, all, marked⟩)

theorem marked_joinMarks_iff {text rest : List UInt8} {first second : Marks}
    (aligned : first.length = second.length) :
    Marked text (joinMarks first second) rest ↔
      Marked text first rest ∨ Marked text second rest := by
  induction first generalizing text second with
  | nil =>
      cases second with
      | nil => simp [joinMarks, not_marked_nil]
      | cons => simp at aligned
  | cons mark first ih =>
      cases second with
      | nil => simp at aligned
      | cons other second =>
          have shorter : first.length = second.length := by simpa using aligned
          cases text with
          | nil => simp [joinMarks, marked_nil_iff, or_and_right]
          | cons char text =>
              have inner := @ih text second shorter
              simp only [joinMarks] at inner
              simp only [joinMarks, List.zipWith_cons_cons, marked_cons_iff, inner,
                Bool.or_eq_true, or_and_right]
              exact or_or_or_comm

/-- The pattern leads to a place if and only if it matches what lies between a marked place and
that place. -/
theorem marked_after_iff {glob : Glob} {text rest : List UInt8} {marks : Marks}
    (aligned : marks.length = text.length + 1) :
    Marked text (glob.after text marks) rest ↔
      ∃ consumed, Matches glob consumed ∧ Marked text marks (consumed ++ rest) := by
  induction glob generalizing marks rest with
  | empty =>
      constructor
      · intro marked; exact ⟨[], .empty, marked⟩
      · rintro ⟨_, ⟨⟩, marked⟩; exact marked
  | byte set =>
      rw [after, marked_stepMarks_iff]
      constructor
      · rintro ⟨char, inside, marked⟩; exact ⟨[char], .byte inside, marked⟩
      · rintro ⟨_, matched, marked⟩
        cases matched with
        | byte inside => exact ⟨_, inside, marked⟩
  | run =>
      rw [after, marked_spreadMarks_iff aligned]
      simp only [Bool.false_eq_true, false_and, false_or, decide_eq_true_eq]
      constructor
      · rintro ⟨consumed, all, marked⟩
        exact ⟨consumed, .run fun member => all _ member rfl, marked⟩
      · rintro ⟨consumed, matched, marked⟩
        cases matched with
        | run free => exact ⟨consumed, fun char member same => free (same ▸ member), marked⟩
  | anything =>
      rw [after, marked_spreadMarks_iff aligned]
      simp only [Bool.false_eq_true, false_and, false_or, implies_true, true_and]
      exact ⟨fun ⟨consumed, marked⟩ => ⟨consumed, .anything, marked⟩,
        fun ⟨consumed, _, marked⟩ => ⟨consumed, marked⟩⟩
  | both first second firstIH secondIH =>
      -- The second part is not tried where the first leads nowhere, which makes no difference.
      have kept : Marked text ((both first second).after text marks) rest ↔
          Marked text (second.after text (first.after text marks)) rest := by
        simp only [after]
        split
        next => rfl
        next none =>
          have unmarked (other : List UInt8) : ¬ Marked text (first.after text marks) other :=
            fun marked => none (by simpa using marked.contains)
          rw [secondIH (length_after aligned)]
          exact iff_of_false (unmarked rest) fun ⟨_, _, marked⟩ => unmarked _ marked
      rw [kept, secondIH (length_after aligned)]
      constructor
      · rintro ⟨right, rightMatched, marked⟩
        obtain ⟨left, leftMatched, marked⟩ := (firstIH aligned).1 marked
        exact ⟨left ++ right, .both leftMatched rightMatched, by simpa using marked⟩
      · rintro ⟨_, matched, marked⟩
        cases matched with
        | @both _ _ left right leftMatched rightMatched =>
            exact ⟨right, rightMatched,
              (firstIH aligned).2 ⟨left, leftMatched, by simpa using marked⟩⟩
  | either first second firstIH secondIH =>
      rw [after, marked_joinMarks_iff (by rw [length_after aligned, length_after aligned]),
        firstIH aligned, secondIH aligned]
      constructor
      · rintro (⟨consumed, matched, marked⟩ | ⟨consumed, matched, marked⟩)
        · exact ⟨consumed, .left matched, marked⟩
        · exact ⟨consumed, .right matched, marked⟩
      · rintro ⟨consumed, matched, marked⟩
        cases matched with
        | left matched => exact .inl ⟨consumed, matched, marked⟩
        | right matched => exact .inr ⟨consumed, matched, marked⟩

theorem getLast?_eq_true_iff {text : List UInt8} {marks : Marks}
    (aligned : marks.length = text.length + 1) :
    marks.getLast? = some true ↔ Marked text marks [] := by
  induction text generalizing marks with
  | nil =>
      match marks, aligned with
      | [mark], _ => simp [marked_nil_iff]
  | cons char text ih =>
      match marks, aligned with
      | mark :: next :: marks, aligned =>
          rw [List.getLast?_cons_cons, ih (by simpa using aligned)]
          simp [marked_cons_iff]

/-- The executable test and the declarative relation agree. -/
theorem accepts_iff {glob : Glob} {text : List UInt8} :
    glob.accepts text = true ↔ Matches glob text := by
  have aligned : (startMarks text).length = text.length + 1 := by simp [startMarks]
  rw [accepts, decide_eq_true_eq, getLast?_eq_true_iff (length_after aligned),
    marked_after_iff aligned]
  simp only [List.append_nil, marked_startMarks_iff]
  exact ⟨fun ⟨_, matched, same⟩ => same ▸ matched, fun matched => ⟨text, matched, rfl⟩⟩

end Glob

end SourceBaseline
