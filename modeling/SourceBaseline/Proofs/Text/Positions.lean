import SourceBaseline.Text.Lines
import SourceBaseline.Text.Utf8

/-!
# Rows and columns

The position of a byte in a text that is put together from two is found from its position in one of
them. `LineAt` says where a line stands in a text, and gives the row and the column of each byte in it;
the lines of a text stand in it, and so do the lines of which a text is made.
-/

set_option autoImplicit false

namespace SourceBaseline.Text

variable {left right text line : List Char} {offset column row start : Nat} {char : Char}

def byteCount : List Char → Nat
  | [] => 0
  | char :: rest => char.utf8Size + byteCount rest

@[simp] theorem byteCount_nil : byteCount [] = 0 := rfl

@[simp] theorem byteCount_cons : byteCount (char :: text) = char.utf8Size + byteCount text := rfl

@[simp] theorem byteCount_append : byteCount (left ++ right) = byteCount left + byteCount right := by
  induction left with
  | nil => exact (Nat.zero_add _).symm
  | cons char rest ih => rw [List.cons_append, byteCount_cons, byteCount_cons, ih, Nat.add_assoc]

theorem byteCount_eq_zero_iff : byteCount text = 0 ↔ text = [] := by
  cases text with
  | nil => simp
  | cons char rest =>
      have positive := char.utf8Size_pos
      rw [byteCount_cons]
      simp only [reduceCtorEq, iff_false]
      omega

/-! ## Positions in a text after another one -/

@[simp] theorem rowAt_zero : rowAt 0 text = 0 := by
  cases text <;> rfl

@[simp] theorem rowAt_nil : rowAt offset [] = 0 := by
  cases offset <;> rfl

theorem rowAt_cons (inside : 0 < offset) :
    rowAt offset (char :: text) =
      (if char = '\n' then 1 else 0) + rowAt (offset - char.utf8Size) text := by
  obtain ⟨before, rfl⟩ := Nat.exists_eq_succ_of_ne_zero (Nat.ne_of_gt inside)
  rfl

@[simp] theorem columnFrom_zero : columnFrom column 0 text = column := by
  cases text <;> rfl

@[simp] theorem columnFrom_nil : columnFrom column offset [] = column + offset := by
  cases offset <;> rfl

theorem columnFrom_cons (inside : 0 < offset) :
    columnFrom column offset (char :: text) =
      columnFrom (if char = '\n' then 0 else column + min char.utf8Size offset)
        (offset - char.utf8Size) text := by
  obtain ⟨before, rfl⟩ := Nat.exists_eq_succ_of_ne_zero (Nat.ne_of_gt inside)
  rfl

@[simp] theorem dropBytes?_zero : dropBytes? 0 text = some text := by
  cases text <;> rfl

theorem dropBytes?_cons (inside : 0 < offset) :
    dropBytes? offset (char :: text) =
      if char.utf8Size ≤ offset then dropBytes? (offset - char.utf8Size) text else none := by
  obtain ⟨before, rfl⟩ := Nat.exists_eq_succ_of_ne_zero (Nat.ne_of_gt inside)
  rfl

theorem rowAt_append_add :
    rowAt (byteCount left + offset) (left ++ right) =
      rowAt (byteCount left) left + rowAt offset right := by
  induction left with
  | nil => simp
  | cons char rest ih =>
      have positive := char.utf8Size_pos
      rw [List.cons_append, byteCount_cons, rowAt_cons (by omega), rowAt_cons (by omega), Nat.add_assoc,
        Nat.add_sub_cancel_left, Nat.add_sub_cancel_left, ih, Nat.add_assoc]

theorem columnFrom_append_add :
    columnFrom column (byteCount left + offset) (left ++ right) =
      columnFrom (columnFrom column (byteCount left) left) offset right := by
  induction left generalizing column with
  | nil => simp
  | cons char rest ih =>
      have positive := char.utf8Size_pos
      rw [List.cons_append, byteCount_cons, columnFrom_cons (by omega), columnFrom_cons (by omega),
        Nat.add_assoc, Nat.add_sub_cancel_left, Nat.add_sub_cancel_left, ih,
        Nat.min_eq_left (Nat.le_add_right _ _), Nat.min_eq_left (Nat.le_add_right _ _)]

theorem dropBytes?_append_add :
    dropBytes? (byteCount left + offset) (left ++ right) = dropBytes? offset right := by
  induction left with
  | nil => simp
  | cons char rest ih =>
      have positive := char.utf8Size_pos
      rw [List.cons_append, byteCount_cons, dropBytes?_cons (by omega), if_pos (by omega), Nat.add_assoc,
        Nat.add_sub_cancel_left, ih]

/-! ## Positions in a text before another one -/

theorem rowAt_append_of_le (inside : offset ≤ byteCount left) :
    rowAt offset (left ++ right) = rowAt offset left := by
  induction left generalizing offset with
  | nil =>
      rw [Nat.le_zero.1 inside, rowAt_zero, rowAt_zero]
  | cons char rest ih =>
      rcases Nat.eq_zero_or_pos offset with rfl | positive
      · rw [rowAt_zero, rowAt_zero]
      · rw [byteCount_cons] at inside
        rw [List.cons_append, rowAt_cons positive, rowAt_cons positive, ih (by omega)]

theorem columnFrom_append_of_le (inside : offset ≤ byteCount left) :
    columnFrom column offset (left ++ right) = columnFrom column offset left := by
  induction left generalizing column offset with
  | nil =>
      rw [Nat.le_zero.1 inside, columnFrom_zero, columnFrom_zero]
  | cons char rest ih =>
      rcases Nat.eq_zero_or_pos offset with rfl | positive
      · rw [columnFrom_zero, columnFrom_zero]
      · rw [byteCount_cons] at inside
        rw [List.cons_append, columnFrom_cons positive, columnFrom_cons positive, ih (by omega)]

theorem dropBytes?_append {rest : List Char} (found : dropBytes? offset left = some rest) :
    dropBytes? offset (left ++ right) = some (rest ++ right) := by
  induction left generalizing offset with
  | nil =>
      cases offset with
      | zero =>
          cases found
          simp
      | succ offset => cases found
  | cons char before ih =>
      rcases Nat.eq_zero_or_pos offset with rfl | positive
      · rw [dropBytes?_zero, Option.some_inj] at found
        subst found
        simp
      · rw [dropBytes?_cons positive] at found
        rw [List.cons_append, dropBytes?_cons positive]
        split at found
        next fits => rw [if_pos fits, ih found]
        next => cases found

/-- What stands between the last line feed and a byte: all of the bytes before the text as well if there
is no line feed before the byte. -/
theorem columnFrom_eq :
    columnFrom column offset text =
      (if rowAt offset text = 0 then column else 0) + columnAt offset text := by
  unfold columnAt
  induction text generalizing column offset with
  | nil => simp
  | cons char rest ih =>
      rcases Nat.eq_zero_or_pos offset with rfl | positive
      · simp
      · rw [columnFrom_cons positive, columnFrom_cons positive, rowAt_cons positive]
        by_cases feed : char = '\n'
        · simp [feed]
        · rw [if_neg feed, if_neg feed, if_neg feed, Nat.zero_add, Nat.zero_add, ih,
            @ih _ (min char.utf8Size offset)]
          split <;> omega

/-! ## Slices -/

theorem exists_append_of_dropBytes? {rest : List Char} (found : dropBytes? offset text = some rest) :
    ∃ before, text = before ++ rest ∧ byteCount before = offset := by
  induction text generalizing offset with
  | nil =>
      cases offset with
      | zero => cases found; exact ⟨[], rfl, rfl⟩
      | succ offset => cases found
  | cons char more ih =>
      rcases Nat.eq_zero_or_pos offset with rfl | positive
      · rw [dropBytes?_zero, Option.some_inj] at found
        exact ⟨[], found, rfl⟩
      · rw [dropBytes?_cons positive] at found
        split at found
        next fits =>
          obtain ⟨before, rfl, count⟩ := ih found
          exact ⟨char :: before, rfl, by rw [byteCount_cons]; omega⟩
        next => cases found

theorem exists_append_of_takeBytes? {piece : List Char} {count : Nat}
    (found : takeBytes? count text = some piece) : ∃ after, text = piece ++ after := by
  fun_induction takeBytes? count text generalizing piece with
  | case1 text => cases found; exact ⟨text, rfl⟩
  | case2 => cases found
  | case3 count char rest fits ih =>
      obtain ⟨inner, taken, rfl⟩ := Option.map_eq_some_iff.1 found
      obtain ⟨after, rfl⟩ := ih taken
      exact ⟨after, rfl⟩
  | case4 => cases found

theorem exists_append_of_slice? {piece : List Char} {stop : Nat}
    (found : slice? text start stop = some piece) :
    ∃ before after, text = before ++ (piece ++ after) ∧ byteCount before = start := by
  unfold slice? at found
  split at found
  next =>
    obtain ⟨rest, dropped, taken⟩ := Option.bind_eq_some_iff.1 found
    obtain ⟨before, rfl, count⟩ := exists_append_of_dropBytes? dropped
    obtain ⟨after, rfl⟩ := exists_append_of_takeBytes? taken
    exact ⟨before, after, rfl, count⟩
  next => cases found

theorem byteCount_of_takeBytes? {piece : List Char} {count : Nat}
    (found : takeBytes? count text = some piece) :
    byteCount piece = count := by
  fun_induction takeBytes? count text generalizing piece with
  | case1 => cases found; rfl
  | case2 => cases found
  | case3 count char rest fits ih =>
      obtain ⟨inner, taken, rfl⟩ := Option.map_eq_some_iff.1 found
      have counted := ih taken
      simp only [byteCount_cons]
      omega
  | case4 => cases found

theorem add_byteCount_of_slice? {piece : List Char} {stop : Nat}
    (found : slice? text start stop = some piece) :
    start + byteCount piece = stop := by
  unfold slice? at found
  split at found
  next ordered =>
    obtain ⟨rest, _, taken⟩ := Option.bind_eq_some_iff.1 found
    have counted := byteCount_of_takeBytes? taken
    omega
  next => cases found

/-! ## Lines -/

/-- A line of a text, or the beginning of one, with its number and the byte at which it starts. -/
def LineAt (text : List Char) (row : Nat) (line : List Char) (start : Nat) : Prop :=
  ∃ before after, text = before ++ (line ++ after) ∧ '\n' ∉ line ∧ byteCount before = start ∧
    rowAt start before = row ∧ columnAt start before = 0

theorem rowAt_line (plain : '\n' ∉ line) : rowAt offset line = 0 := by
  induction line generalizing offset with
  | nil => exact rowAt_nil
  | cons char rest ih =>
      rcases Nat.eq_zero_or_pos offset with rfl | positive
      · exact rowAt_zero
      · obtain ⟨other, plain⟩ := not_or.1 (mt List.mem_cons.2 plain)
        rw [rowAt_cons positive, if_neg (Ne.symm other), ih plain]

theorem columnFrom_line (plain : '\n' ∉ line) : columnFrom column offset line = column + offset := by
  induction line generalizing column offset with
  | nil => exact columnFrom_nil
  | cons char rest ih =>
      rcases Nat.eq_zero_or_pos offset with rfl | positive
      · exact columnFrom_zero
      · obtain ⟨other, plain⟩ := not_or.1 (mt List.mem_cons.2 plain)
        rw [columnFrom_cons positive, if_neg (Ne.symm other), ih plain]
        omega

namespace LineAt

theorem rowAt_add (stands : LineAt text row line start) (inside : offset ≤ byteCount line) :
    rowAt (start + offset) text = row := by
  obtain ⟨before, after, rfl, plain, rfl, here, _⟩ := stands
  rw [rowAt_append_add, rowAt_append_of_le inside, rowAt_line plain, here, Nat.add_zero]

theorem columnAt_add (stands : LineAt text row line start) (inside : offset ≤ byteCount line) :
    columnAt (start + offset) text = offset := by
  obtain ⟨before, after, rfl, plain, rfl, _, here⟩ := stands
  rw [columnAt, columnFrom_append_add, columnFrom_append_of_le inside, columnFrom_line plain,
    ← columnAt, here, Nat.zero_add]

theorem dropBytes?_add {rest : List Char} (stands : LineAt text row line start)
    (found : dropBytes? offset line = some rest) :
    ∃ after, dropBytes? (start + offset) text = some (rest ++ after) := by
  obtain ⟨before, after, rfl, _, rfl, _⟩ := stands
  exact ⟨after, dropBytes?_append_add.trans (dropBytes?_append found)⟩

theorem le_byteCount (stands : LineAt text row line start) (inside : offset ≤ byteCount line) :
    start + offset ≤ byteCount text := by
  obtain ⟨before, after, rfl, _, rfl, _⟩ := stands
  simp only [byteCount_append]
  omega

/-- A line after the first one is not moved to the right by a character in front of the text. -/
theorem cons (stands : LineAt text row line start) (later : char = '\n' ∨ row ≠ 0) :
    LineAt (char :: text) ((if char = '\n' then 1 else 0) + row) line (char.utf8Size + start) := by
  obtain ⟨before, after, rfl, plain, rfl, rfl, here⟩ := stands
  have positive : 0 < char.utf8Size + byteCount before := Nat.add_pos_left char.utf8Size_pos _
  refine ⟨char :: before, after, rfl, plain, byteCount_cons, ?_, ?_⟩
  · rw [rowAt_cons positive, Nat.add_sub_cancel_left]
  · rw [columnAt, columnFrom_cons positive, Nat.add_sub_cancel_left, columnFrom_eq, here]
    rcases later with rfl | later
    · simp
    · rw [if_neg later]

theorem append_feed (stands : LineAt text row line start) (plain : '\n' ∉ left) :
    LineAt (left ++ '\n' :: text) (row + 1) line (byteCount left + 1 + start) := by
  induction left with
  | nil =>
      have feed := stands.cons (.inl (@rfl _ '\n'))
      rwa [if_pos rfl, Nat.add_comm 1] at feed
  | cons char rest ih =>
      obtain ⟨other, plain⟩ := not_or.1 (mt List.mem_cons.2 plain)
      have moved := (ih plain).cons (.inr (Nat.succ_ne_zero row) : char = '\n' ∨ _)
      rw [if_neg (Ne.symm other), Nat.zero_add, ← Nat.add_assoc, ← Nat.add_assoc] at moved
      rwa [List.cons_append, byteCount_cons]

theorem first (plain : '\n' ∉ line) : LineAt (line ++ text) 0 line 0 :=
  ⟨[], text, rfl, plain, rfl, rfl, rfl⟩

theorem exists_append (stands : LineAt text row line 0) :
    ∃ after, text = line ++ after ∧ '\n' ∉ line := by
  obtain ⟨before, after, rfl, plain, empty, _⟩ := stands
  cases before with
  | nil => exact ⟨after, rfl, plain⟩
  | cons char rest =>
      have positive := char.utf8Size_pos
      rw [byteCount_cons] at empty
      omega

end LineAt

/-! ## The lines of a text -/

/-- The byte at which a line starts. -/
def lineStart : Nat → List Char → Nat
  | 0, _ => 0
  | _ + 1, [] => 0
  | row + 1, char :: rest =>
      char.utf8Size + lineStart (if char = '\n' then row else row + 1) rest

@[simp] theorem lineStart_zero : lineStart 0 text = 0 := by
  cases text <;> rfl

theorem lines_eq_nil_iff : lines text = [] ↔ text = [] := by
  refine ⟨fun empty => ?_, fun empty => empty ▸ rfl⟩
  induction text with
  | nil => rfl
  | cons char rest ih =>
      unfold lines at empty
      split at empty
      · cases empty
      · split at empty
        next ending => rw [ih empty] at ending; cases ending.2
        next => split at empty <;> cases empty

/-- A text has a line for each of its line feeds, and one more unless it ends in a line feed. -/
theorem length_lines (nonempty : text ≠ []) :
    (lines text).length =
      rowAt (byteCount text) text + if text.getLast? = some '\n' then 0 else 1 := by
  induction text with
  | nil => exact (nonempty rfl).elim
  | cons char rest ih =>
      have positive : 0 < byteCount (char :: rest) := Nat.add_pos_left char.utf8Size_pos _
      have rows : rowAt (byteCount (char :: rest)) (char :: rest) =
          (if char = '\n' then 1 else 0) + rowAt (byteCount rest) rest := by
        rw [rowAt_cons positive, byteCount_cons, Nat.add_sub_cancel_left]
      rw [rows]
      cases rest with
      | nil => by_cases feed : char = '\n' <;> simp [lines, feed]
      | cons next more =>
          have later := ih (List.cons_ne_nil next more)
          rw [List.getLast?_cons_cons]
          unfold lines
          split
          next feed => rw [List.length_cons, later]; omega
          next =>
            split
            next => rw [later, Nat.zero_add]
            next =>
              split
              next empty => exact absurd (lines_eq_nil_iff.1 empty) (List.cons_ne_nil next more)
              next first others same =>
                rw [same] at later
                rw [List.length_cons, ← List.length_cons, later, Nat.zero_add]

theorem LineAt.cons_other {rest : List Char} (other : char ≠ '\n')
    (stands : LineAt rest (row + 1) line (lineStart (row + 1) rest)) :
    LineAt (char :: rest) (row + 1) line (lineStart (row + 1) (char :: rest)) := by
  have moved := stands.cons (.inr (Nat.succ_ne_zero row) : char = '\n' ∨ _)
  rw [if_neg other, Nat.zero_add] at moved
  rwa [lineStart, if_neg other]

theorem lineAt_of_lines (found : (lines text)[row]? = some line) :
    LineAt text row line (lineStart row text) := by
  -- A character in front moves every line but the first, which it joins or, as an ending, precedes.
  induction text generalizing row line with
  | nil => cases found
  | cons char rest ih =>
      unfold lines at found
      split at found
      next feed =>
        subst feed
        cases row with
        | zero => cases found; exact LineAt.first (List.not_mem_nil)
        | succ row =>
            have moved := (ih found).cons (.inl (@rfl _ '\n'))
            rwa [if_pos rfl, Nat.add_comm 1] at moved
      next other =>
        split at found
        next ending =>
          cases row with
          | zero =>
              obtain ⟨after, rfl⟩ := List.head?_eq_some_iff.1 ending.2
              cases found
              exact LineAt.first List.not_mem_nil
          | succ row => exact (ih found).cons_other other
        next =>
          split at found
          next empty =>
            cases row with
            | zero =>
                cases found
                exact LineAt.first fun member => other (List.mem_singleton.1 member).symm
            | succ row => cases found
          next first others known =>
            cases row with
            | zero =>
                have here : (lines rest)[0]? = some first := by rw [known]; rfl
                have stands := ih here
                rw [lineStart_zero] at stands
                obtain ⟨after, rfl, plain⟩ := stands.exists_append
                cases found
                exact LineAt.first fun member =>
                  (List.mem_cons.1 member).elim (fun same => other same.symm) plain
            | succ row => exact (ih (known ▸ found)).cons_other other

theorem not_feed_mem_of_mem_lines (member : line ∈ lines text) : '\n' ∉ line := by
  obtain ⟨row, found⟩ := List.mem_iff_getElem?.1 member
  obtain ⟨_, _, _, plain, _⟩ := lineAt_of_lines found
  exact plain

/-! ## Texts made of lines -/

theorem exists_dropBytes?_of_append {rest : List Char} (inside : offset ≤ byteCount left)
    (found : dropBytes? offset (left ++ right) = some (char :: rest))
    (ends : ∀ more, right ≠ char :: more) : ∃ more, dropBytes? offset left = some (char :: more) := by
  induction left generalizing offset with
  | nil =>
      rw [Nat.le_zero.1 inside, dropBytes?_zero, Option.some_inj] at found
      exact (ends rest found).elim
  | cons first before ih =>
      rcases Nat.eq_zero_or_pos offset with rfl | positive
      · rw [dropBytes?_zero, Option.some_inj] at found
        obtain ⟨rfl, _⟩ := List.cons_eq_cons.1 found
        exact ⟨before, dropBytes?_zero⟩
      · rw [byteCount_cons] at inside
        rw [List.cons_append, dropBytes?_cons positive] at found
        rw [dropBytes?_cons positive]
        split at found
        next fits => rw [if_pos fits]; exact ih (by omega) found
        next => cases found

/-- Every byte of a text made of lines belongs to one of them, or ends it. -/
theorem exists_lineAt_unlines {pieces : List (List Char)} (plain : ∀ piece ∈ pieces, '\n' ∉ piece)
    (nonempty : pieces ≠ []) (inside : offset ≤ byteCount (unlines pieces)) :
    ∃ row line start column, pieces[row]? = some line ∧ LineAt (unlines pieces) row line start ∧
      offset = start + column ∧ column ≤ byteCount line ∧
      ∀ char rest, char ≠ '\n' → dropBytes? offset (unlines pieces) = some (char :: rest) →
        ∃ more, dropBytes? column line = some (char :: more) := by
  induction pieces generalizing offset with
  | nil => exact (nonempty rfl).elim
  | cons first pieces ih =>
      obtain ⟨plainFirst, plain⟩ := List.forall_mem_cons.1 plain
      cases pieces with
      | nil =>
          have single : unlines [first] = first ++ [] := by simp [unlines]
          rw [single] at inside ⊢
          rw [List.append_nil] at inside
          exact ⟨0, first, 0, offset, rfl, .first plainFirst, (Nat.zero_add _).symm, inside,
            fun char rest _ found => exists_dropBytes?_of_append inside found nofun⟩
      | cons second pieces =>
          have joined : unlines (first :: second :: pieces) =
              first ++ '\n' :: unlines (second :: pieces) := by simp [unlines]
          rw [joined] at inside ⊢
          by_cases here : offset ≤ byteCount first
          · exact ⟨0, first, 0, offset, rfl, .first plainFirst, (Nat.zero_add _).symm, here,
              fun char rest other found => exists_dropBytes?_of_append here found
                fun more same => other (List.cons_eq_cons.1 same).1.symm⟩
          · obtain ⟨later, rfl⟩ := Nat.exists_eq_add_of_lt (Nat.not_le.1 here)
            have feed : '\n'.utf8Size = 1 := rfl
            rw [byteCount_append, byteCount_cons, feed] at inside
            obtain ⟨row, line, start, column, found, stands, rfl, within, read⟩ :=
              @ih later plain (List.cons_ne_nil _ _) (by omega)
            refine ⟨row + 1, line, _, column, found, stands.append_feed plainFirst, by omega, within,
              fun char rest other found => read char rest other ?_⟩
            rwa [Nat.add_assoc, dropBytes?_append_add, dropBytes?_cons (Nat.succ_pos _), feed,
              if_pos (Nat.le_add_left _ _), Nat.succ_sub_one] at found

end SourceBaseline.Text
