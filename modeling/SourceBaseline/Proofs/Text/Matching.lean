import SourceBaseline.Proofs.Text.Redaction

/-!
# What redaction leaves

A path occurs in a text at its start and after a character that opens one. Redaction puts a marker in the
place of paths that occur and keeps everything else. What it answers is free of paths, and a text that is
free of paths is its own answer; so redacting twice comes to the same as redacting once.
-/

set_option autoImplicit false

namespace SourceBaseline.Text

variable {char : Char} {text front before path after : List Char} {parts : Parts} {tail : List Char}

/-- A slash, or a drive letter with a colon and a slash of either kind. -/
inductive IsRoot : List Char → Prop
  | slash : IsRoot ['/']
  | drive {letter slash : Char} : letter.isAlpha = true → slash = '/' ∨ slash = '\\' →
      IsRoot [letter, ':', slash]

/-- A root with characters that do not end a path. -/
def IsAbsolute (path : List Char) : Prop :=
  ∃ root rest, path = root ++ rest ∧ IsRoot root ∧ ∀ char ∈ rest, endsPath char = false

/-- An absolute path between two parts of a text, where a path is recognized after the first part. -/
structure Occurs (text before path after : List Char) : Prop where
  split : text = before ++ (path ++ after)
  opened : before = [] ∨ Opens before
  absolute : IsAbsolute path

def HasPath (text : List Char) : Prop :=
  ∃ before path after, Occurs text before path after

/-! ## Roots -/

theorem rootLength_of_isRoot {root : List Char} (isRoot : IsRoot root) :
    rootLength (root ++ after) = root.length := by
  cases isRoot with
  | slash => rfl
  | @drive letter slash alpha either =>
      simp only [List.cons_append, List.nil_append]
      unfold rootLength
      split
      next same =>
        cases same
        exact absurd alpha (by decide)
      next same =>
        cases same
        exact if_pos ⟨alpha, either⟩
      next other => exact absurd rfl (other letter slash after)

theorem exists_isRoot_of_rootLength (rooted : rootLength text ≠ 0) :
    ∃ root, IsRoot root ∧ root <+: text := by
  unfold rootLength at rooted
  split at rooted
  next rest => exact ⟨['/'], .slash, rest, rfl⟩
  next letter slash rest _ =>
    split at rooted
    next both => exact ⟨[letter, ':', slash], .drive both.1 both.2, rest, rfl⟩
    next => exact absurd rfl rooted
  next => exact absurd rfl rooted

theorem rootLength_eq_zero_iff : rootLength text = 0 ↔ ∀ root, IsRoot root → ¬ root <+: text := by
  constructor
  · intro unrooted root isRoot begins
    obtain ⟨rest, rfl⟩ := begins
    have empty := (rootLength_of_isRoot isRoot).symm.trans unrooted
    cases isRoot <;> cases empty
  · intro none
    apply Classical.byContradiction
    intro rooted
    obtain ⟨root, isRoot, begins⟩ := exists_isRoot_of_rootLength rooted
    exact none root isRoot begins

theorem opensPath_of_isAlpha (alpha : char.isAlpha = true) : opensPath char = false := by
  apply Bool.eq_false_iff.2
  intro opens
  simp only [opensPath, Bool.or_eq_true, decide_eq_true_eq] at opens
  rcases opens with ((blank | quote) | rfl) | rfl
  · have ends : endsPath char = true := by simp [endsPath, blank]
    exact absurd alpha (by simp [isAlpha_of_endsPath ends])
  · have ends : endsPath char = true := by simp [endsPath, quote]
    exact absurd alpha (by simp [isAlpha_of_endsPath ends])
  · exact absurd alpha (by decide)
  · exact absurd alpha (by decide)

theorem IsRoot.closed {root : List Char} (isRoot : IsRoot root) : ∀ char ∈ root, opensPath char = false := by
  cases isRoot with
  | slash => exact List.forall_mem_singleton.2 (by decide)
  | drive alpha either =>
      refine List.forall_mem_cons.2 ⟨opensPath_of_isAlpha alpha, List.forall_mem_cons.2 ⟨by decide, ?_⟩⟩
      rcases either with rfl | rfl
      · exact List.forall_mem_singleton.2 (by decide)
      · exact List.forall_mem_singleton.2 (by decide)

/-! ## Texts without paths -/

/-- No root follows a character that opens a path. -/
def Quiet : List Char → Prop
  | [] => True
  | char :: rest => ¬ (opensPath char = true ∧ rootLength rest ≠ 0) ∧ Quiet rest

theorem opens_singleton : Opens [char] ↔ opensPath char = true := by simp [Opens]

theorem opens_cons {next : Char} {rest : List Char} : Opens (char :: next :: rest) ↔ Opens (next :: rest) := by
  simp [Opens, List.getLast?_cons_cons]

theorem quiet_iff : Quiet text ↔ ∀ before rest, text = before ++ rest → Opens before → rootLength rest = 0 := by
  induction text with
  | nil =>
      refine ⟨fun _ before rest split opens => ?_, fun _ => trivial⟩
      obtain ⟨rfl, rfl⟩ := List.append_eq_nil_iff.1 split.symm
      rfl
  | cons char text ih =>
      constructor
      · intro quiet before rest split opens
        cases before with
        | nil => exact absurd opens (by simp [Opens])
        | cons first before =>
            obtain ⟨rfl, rfl⟩ := List.cons_eq_cons.1 split
            cases before with
            | nil => exact Classical.byContradiction fun rooted => quiet.1 ⟨opens_singleton.1 opens, rooted⟩
            | cons next before => exact ih.1 quiet.2 (next :: before) rest rfl (opens_cons.1 opens)
      · intro unrooted
        refine ⟨fun both => both.2 (unrooted [char] text rfl (opens_singleton.2 both.1)), ih.2 ?_⟩
        intro before rest split opens
        cases before with
        | nil => exact absurd opens (by simp [Opens])
        | cons next before => exact unrooted (char :: next :: before) rest (congrArg _ split) (opens_cons.2 opens)

/-- A text is free of paths if no root begins it or follows a character that opens a path. -/
theorem not_hasPath_iff : ¬ HasPath text ↔ rootLength text = 0 ∧ Quiet text := by
  rw [quiet_iff]
  constructor
  · intro free
    have unrooted : ∀ before rest, text = before ++ rest → before = [] ∨ Opens before → rootLength rest = 0 := by
      intro before rest split opened
      refine rootLength_eq_zero_iff.2 fun root isRoot begins => free ?_
      obtain ⟨after, rfl⟩ := begins
      exact ⟨before, root, after, split, opened, root, [], (List.append_nil root).symm, isRoot, nofun⟩
    exact ⟨unrooted [] text rfl (.inl rfl), fun before rest split opens => unrooted before rest split (.inr opens)⟩
  · intro free found
    obtain ⟨before, path, after, split, opened, root, rest, rfl, isRoot, _⟩ := found
    have begins : root <+: root ++ rest ++ after := ⟨rest ++ after, (List.append_assoc ..).symm⟩
    have unrooted : rootLength (root ++ rest ++ after) = 0 := by
      rcases opened with rfl | opens
      · exact split ▸ free.1
      · exact free.2 before _ split opens
    exact rootLength_eq_zero_iff.1 unrooted root isRoot begins

instance : DecidablePred Quiet := fun text => by
  induction text with
  | nil => exact .isTrue trivial
  | cons char rest decidable =>
      exact inferInstanceAs (Decidable (¬ (opensPath char = true ∧ rootLength rest ≠ 0) ∧ Quiet rest))

theorem closed_pathMarker : ∀ char ∈ pathMarker, opensPath char = false := by
  have closed : (pathMarker.all fun char => !opensPath char) = true := by decide
  simpa using closed

theorem quiet_append_of_closed (closed : ∀ char ∈ front, opensPath char = false) :
    Quiet (front ++ text) ↔ Quiet text := by
  induction front with
  | nil => exact .rfl
  | cons char rest ih =>
      obtain ⟨first, later⟩ := List.forall_mem_cons.1 closed
      refine ⟨fun quiet => (ih later).1 quiet.2, fun quiet => ⟨?_, (ih later).2 quiet⟩⟩
      exact fun both => absurd (first.symm.trans both.1) (by decide)

/-- A root that stands in front of a blank does not reach over it. -/
theorem prefix_append_cons_iff (absent : char ∉ front) : front <+: before ++ char :: after ↔ front <+: before := by
  induction before generalizing front with
  | nil =>
      cases front with
      | nil => simp
      | cons first rest =>
          obtain ⟨other, _⟩ := not_or.1 (mt List.mem_cons.2 absent)
          simp [List.cons_prefix_cons, Ne.symm other]
  | cons next before ih =>
      cases front with
      | nil => simp
      | cons first rest =>
          obtain ⟨_, absent⟩ := not_or.1 (mt List.mem_cons.2 absent)
          rw [List.cons_append, List.cons_prefix_cons, List.cons_prefix_cons, ih absent]

theorem rootLength_append_blank_eq_zero_iff :
    rootLength (before ++ ' ' :: after) = 0 ↔ rootLength (before ++ [' ']) = 0 := by
  rw [rootLength_eq_zero_iff, rootLength_eq_zero_iff]
  refine forall_congr' fun root => forall_congr' fun isRoot => not_congr ?_
  have absent : ' ' ∉ root := fun member => absurd (isRoot.closed ' ' member) (by decide)
  rw [prefix_append_cons_iff absent, prefix_append_cons_iff absent]

theorem not_hasPath_append_blank (free : ¬ HasPath (before ++ [' '])) (freeToo : ¬ HasPath after) :
    ¬ HasPath (before ++ ' ' :: after) := by
  obtain ⟨unrooted, quiet⟩ := not_hasPath_iff.1 free
  obtain ⟨unrootedToo, quietToo⟩ := not_hasPath_iff.1 freeToo
  refine not_hasPath_iff.2 ⟨rootLength_append_blank_eq_zero_iff.2 unrooted, ?_⟩
  -- No root reaches over the blank, so what is in front of it is judged as it was alone.
  clear unrooted free
  induction before with
  | nil => exact ⟨fun both => both.2 unrootedToo, quietToo⟩
  | cons char rest ih =>
      refine ⟨fun both => quiet.1 ⟨both.1, ?_⟩, ih quiet.2⟩
      exact mt rootLength_append_blank_eq_zero_iff.2 both.2

/-! ## Redacted texts -/

theorem redactFrom_of_quiet (quiet : Quiet text) : redactFrom text = text := by
  induction text with
  | nil => exact redactFrom_nil
  | cons char rest ih => rw [redactFrom_cons, if_neg quiet.1, ih quiet.2]

/-- What opens no path is kept, and nothing else comes to stand in its place. -/
theorem prefix_redactFrom_iff (closed : ∀ char ∈ front, opensPath char = false) :
    front <+: redactFrom text ↔ front <+: text := by
  induction front generalizing text with
  | nil => simp
  | cons first rest ih =>
      obtain ⟨firstClosed, closed⟩ := List.forall_mem_cons.1 closed
      cases text with
      | nil => rw [redactFrom_nil]
      | cons char text =>
          rw [redactFrom_cons]
          split
          next both =>
            have other : first ≠ char := fun same => absurd (firstClosed.symm.trans (same ▸ both.1)) (by decide)
            simp [List.cons_prefix_cons, other]
          next => rw [List.cons_prefix_cons, List.cons_prefix_cons, ih closed]

theorem rootLength_redactFrom_eq_zero_iff : rootLength (redactFrom text) = 0 ↔ rootLength text = 0 := by
  rw [rootLength_eq_zero_iff, rootLength_eq_zero_iff]
  exact forall_congr' fun root => forall_congr' fun isRoot => not_congr (prefix_redactFrom_iff isRoot.closed)

theorem rootLength_pathMarker : rootLength (pathMarker ++ text) = 0 := rfl

theorem quiet_redactFrom (text : List Char) : Quiet (redactFrom text) := by
  fun_induction redactFrom text with
  | case1 => trivial
  | case2 char rest both ih =>
      exact ⟨fun both => both.2 rootLength_pathMarker, (quiet_append_of_closed closed_pathMarker).2 ih⟩
  | case3 char rest kept ih =>
      exact ⟨fun both => kept ⟨both.1, mt rootLength_redactFrom_eq_zero_iff.2 both.2⟩, ih⟩

theorem redactPaths_of_free (free : ¬ HasPath text) : redactPaths text = text := by
  obtain ⟨unrooted, quiet⟩ := not_hasPath_iff.1 free
  rw [redactPaths, if_neg (not_not_intro unrooted), redactFrom_of_quiet quiet]

theorem not_hasPath_redactPaths (text : List Char) : ¬ HasPath (redactPaths text) := by
  refine not_hasPath_iff.2 ?_
  unfold redactPaths
  split
  next => exact ⟨rootLength_pathMarker, (quiet_append_of_closed closed_pathMarker).2 (quiet_redactFrom _)⟩
  next unrooted =>
    exact ⟨rootLength_redactFrom_eq_zero_iff.2 (Classical.not_not.1 unrooted), quiet_redactFrom text⟩

/-! ## What is replaced -/

/-- Every path of the parts follows a gap that opens it and goes on as far as it can. -/
def Parts.Cut : Parts → List Char → Prop
  | [], _ => True
  | (gap, path) :: later, tail =>
      Opens gap ∧ IsAbsolute path ∧ (∀ next ∈ (Parts.text later ++ tail).head?, endsPath next = true) ∧
        Parts.Cut later tail

/-- An absolute path begins where a root does, and goes on up to what `afterPath` leaves. -/
theorem exists_path (rooted : rootLength text ≠ 0) : ∃ path, text = path ++ afterPath text ∧ IsAbsolute path ∧
    ∀ next ∈ (afterPath text).head?, endsPath next = true := by
  obtain ⟨root, isRoot, rest, rfl⟩ := exists_isRoot_of_rootLength rooted
  have left : afterPath (root ++ rest) = rest.dropWhile (!endsPath ·) := by
    rw [afterPath, rootLength_of_isRoot isRoot, List.drop_left]
  refine ⟨root ++ rest.takeWhile (!endsPath ·), ?_, ⟨root, _, rfl, isRoot, fun char member => ?_⟩, ?_⟩
  · rw [left, List.append_assoc, List.takeWhile_append_dropWhile]
  · simpa using List.all_eq_true.1 List.all_takeWhile char member
  · intro next first
    have stopped := List.head?_dropWhile_not (!endsPath ·) rest
    rw [← left, first] at stopped
    simpa using stopped

theorem exists_cut_redactFrom (text : List Char) : ∃ (parts : Parts) (tail : List Char),
    text = parts.text ++ tail ∧ redactFrom text = parts.marked ++ tail ∧ parts.Cut tail := by
  fun_induction redactFrom text with
  | case1 => exact ⟨[], [], rfl, rfl, trivial⟩
  | case2 char rest both ih =>
      obtain ⟨path, split, absolute, ended⟩ := exists_path both.2
      obtain ⟨parts, tail, whole, marked, cut⟩ := ih
      refine ⟨([char], path) :: parts, tail, ?_, ?_, opens_singleton.2 both.1, absolute, whole ▸ ended, cut⟩
      · rw [split, whole]
        simp [Parts.text]
      · simp [Parts.marked, marked]
  | case3 char rest kept ih =>
      -- A character that is kept joins the gap in front of the next path.
      obtain ⟨parts, tail, whole, marked, cut⟩ := ih
      cases parts with
      | nil => exact ⟨[], char :: tail, congrArg _ whole, congrArg _ marked, trivial⟩
      | cons part later =>
          obtain ⟨gap, path⟩ := part
          refine ⟨(char :: gap, path) :: later, tail, ?_, ?_, ?_, cut.2⟩
          · rw [whole]; rfl
          · rw [marked]; rfl
          · obtain ⟨last, ends, opens⟩ := cut.1
            exact ⟨last, by simp [List.getLast?_cons, Option.mem_def.1 ends], opens⟩

/-- A text in parts: each path occurs where it stands, and goes on as far as it can. -/
def Parts.Divides (text : List Char) (parts : Parts) (tail : List Char) : Prop :=
  text = parts.text ++ tail ∧ ∀ earlier gap path later, parts = earlier ++ (gap, path) :: later →
    Occurs text (Parts.text earlier ++ gap) path (Parts.text later ++ tail) ∧
      ∀ next ∈ (Parts.text later ++ tail).head?, endsPath next = true

theorem Parts.Cut.at {earlier later : Parts} {gap : List Char} (cut : parts.Cut tail)
    (split : parts = earlier ++ (gap, path) :: later) :
    Opens gap ∧ IsAbsolute path ∧ ∀ next ∈ (Parts.text later ++ tail).head?, endsPath next = true := by
  induction earlier generalizing parts with
  | nil =>
      subst split
      exact ⟨cut.1, cut.2.1, cut.2.2.1⟩
  | cons part earlier ih =>
      subst split
      exact ih cut.2.2.2 rfl

theorem Opens.append (opens : Opens after) : Opens (before ++ after) := by
  obtain ⟨last, ends, opens⟩ := opens
  exact ⟨last, by simp [List.getLast?_append, Option.mem_def.1 ends], opens⟩

theorem Parts.text_split {earlier later : Parts} {gap : List Char} :
    Parts.text (earlier ++ (gap, path) :: later) ++ tail =
      Parts.text earlier ++ gap ++ (path ++ (Parts.text later ++ tail)) := by
  simp [Parts.text]

theorem Parts.Cut.divides (cut : parts.Cut tail) : parts.Divides (parts.text ++ tail) tail := by
  refine ⟨rfl, fun earlier gap path later split => ?_⟩
  obtain ⟨opens, absolute, ended⟩ := cut.at split
  exact ⟨⟨split ▸ Parts.text_split, .inr opens.append, absolute⟩, ended⟩

/-- A path may stand in front of the parts. -/
theorem Parts.Cut.divides_cons (cut : parts.Cut tail) (absolute : IsAbsolute path)
    (ended : ∀ next ∈ (parts.text ++ tail).head?, endsPath next = true) :
    Parts.Divides (path ++ (parts.text ++ tail)) (([], path) :: parts) tail := by
  refine ⟨by simp [Parts.text], fun earlier gap found later split => ?_⟩
  cases earlier with
  | nil =>
      cases split
      exact ⟨⟨rfl, .inl rfl, absolute⟩, ended⟩
  | cons part earlier =>
      obtain ⟨rfl, rests⟩ := List.cons_eq_cons.1 split
      obtain ⟨opens, absoluteToo, endedToo⟩ := cut.at rests
      refine ⟨⟨?_, .inr opens.append, absoluteToo⟩, endedToo⟩
      rw [rests]
      exact (congrArg (path ++ ·) Parts.text_split).trans (by simp [Parts.text])

/-- Redaction replaces paths that occur, and keeps what stands between them and after the last. -/
theorem exists_divides (text : List Char) :
    ∃ parts tail, Parts.Divides text parts tail ∧ redactPaths text = parts.marked ++ tail := by
  by_cases rooted : rootLength text = 0
  · obtain ⟨parts, tail, whole, marked, cut⟩ := exists_cut_redactFrom text
    refine ⟨parts, tail, whole ▸ cut.divides, ?_⟩
    rw [redactPaths, if_neg (not_not_intro rooted), marked]
  · obtain ⟨path, split, absolute, ended⟩ := exists_path rooted
    obtain ⟨parts, tail, whole, marked, cut⟩ := exists_cut_redactFrom (afterPath text)
    refine ⟨([], path) :: parts, tail, ?_, ?_⟩
    · rw [split, whole]
      exact cut.divides_cons absolute (whole ▸ ended)
    · rw [redactPaths, if_pos rooted, marked]
      simp [Parts.marked]

end SourceBaseline.Text
