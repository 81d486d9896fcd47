import SourceBaseline.Language.Rust
import SourceBaseline.Proofs.Language.Declaration
import SourceBaseline.Proofs.Text.Positions

/-!
# Comments above a declaration

The documentation of a declaration is made of a block of comments above it. A comment belongs to the block
if it touches the node below it, the next comment, a skipped sibling or the declaration itself.
`docAbove?_eq_some_iff` says what the block is and when a blank line stands in it.
-/

set_option autoImplicit false

namespace SourceBaseline

variable {source : Source} {style : Source.CommentStyle} {text : List Char} {node below : SyntaxNode}

/-! ## The rows of a node -/

theorem SyntaxNode.endRow_of_text? (found : node.text? source.text = some text) :
    node.endRow source.text = node.startRow source.text + Text.rowAt (Text.byteCount text) text := by
  obtain ⟨before, after, whole, start⟩ := Text.exists_append_of_slice? found
  have stop := Text.add_byteCount_of_slice? found
  rw [endRow, startRow, ← stop, ← start, whole, Text.rowAt_append_add,
    Text.rowAt_append_of_le (Nat.le_refl _), Text.rowAt_append_of_le (Nat.le_refl _)]

/-- The siblings above a node, the nearest first, each with the node below it. -/
def SyntaxCursor.neighbours (cursor : SyntaxCursor) : List (SyntaxNode × SyntaxNode) :=
  cursor.before.zip (cursor.node :: cursor.before)

/-! ## Blocks of comments -/

namespace Source

/-- A comment with its text and the node below it. -/
structure Comment where
  node : SyntaxNode
  text : List Char
  below : SyntaxNode

namespace Comment

/-- The row on which the last line of the text stands. -/
def lastRow (source : Source) (comment : Comment) : Nat :=
  comment.node.startRow source.text + ((Text.lines comment.text).length - 1)

/-- The line break after the comment belongs to it. -/
abbrev IncludesBreak (comment : Comment) : Prop :=
  comment.text.getLast? = some '\n'

end Comment

def BlankRow (source : Source) (row : Nat) : Prop :=
  ∃ line, (Text.lines source.text)[row]? = some line ∧ ∀ char ∈ line, Text.isBlank char = true

/-- A blank line stands between the last line of the comment and the start of the node below. -/
def Detached (source : Source) (comment : Comment) : Prop :=
  ∃ row, comment.lastRow source < row ∧ row < comment.below.startRow source.text ∧
    source.BlankRow row

/-- The node below starts on the next row, or one row later if the comment includes its line break. -/
def Touches (source : Source) (comment : Comment) : Prop :=
  comment.below.startRow source.text ≤
    comment.lastRow source + if comment.IncludesBreak then 2 else 1

/-- What a sibling says as a comment, unless it is skipped. -/
def commentOf? (source : Source) (style : CommentStyle) (pair : SyntaxNode × SyntaxNode) :
    Option Comment :=
  if style.skips pair.1.kind then none
  else (pair.1.text? source.text).map fun text => ⟨pair.1, text, pair.2⟩

/-- A sibling belongs to the block: it is skipped, or a comment that touches what is below it. -/
def Joins (source : Source) (style : CommentStyle) (pair : SyntaxNode × SyntaxNode) : Prop :=
  style.skips pair.1.kind = true ∨ ∃ comment, source.commentOf? style pair = some comment ∧
    style.isComment comment.node.kind comment.text = true ∧ source.Touches comment

/-- A sibling ends the block: it is another thing than a comment, or does not touch what is below it. -/
def Stops (source : Source) (style : CommentStyle) (pair : SyntaxNode × SyntaxNode) : Prop :=
  ∃ comment, source.commentOf? style pair = some comment ∧
    ¬ (style.isComment comment.node.kind comment.text = true ∧ source.Touches comment)

/-- All siblings that join, up to one that ends the block or to the first sibling of all. -/
def Block (source : Source) (style : CommentStyle) (pairs block : List (SyntaxNode × SyntaxNode)) :
    Prop :=
  ∃ beyond, pairs = block ++ beyond ∧ (∀ pair ∈ block, source.Joins style pair) ∧
    ∀ pair ∈ beyond.head?, source.Stops style pair

/-- The comments of a block, the nearest first. -/
def comments (source : Source) (style : CommentStyle) (block : List (SyntaxNode × SyntaxNode)) :
    List Comment :=
  block.filterMap (source.commentOf? style)

/-- What is kept of the comments of a block, in the order of the text. -/
def blockTexts (source : Source) (style : CommentStyle) (block : List (SyntaxNode × SyntaxNode)) :
    List (List Char) :=
  ((source.comments style block).map (style.strip ·.text)).reverse

theorem endRow_eq (found : node.text? source.text = some text) :
    node.endRow source.text = Comment.lastRow source ⟨node, text, below⟩ +
      if Comment.IncludesBreak ⟨node, text, below⟩ then 1 else 0 := by
  rw [SyntaxNode.endRow_of_text? found]
  simp only [Comment.lastRow, Comment.IncludesBreak]
  by_cases empty : text = []
  · subst empty
    rfl
  · have rows := Text.length_lines empty
    by_cases ending : text.getLast? = some '\n'
    · have positive := List.length_pos_iff.2 (mt Text.lines_eq_nil_iff.1 empty)
      rw [if_pos ending] at rows ⊢
      omega
    · rw [if_neg ending] at rows ⊢
      omega

theorem touches_iff (found : node.text? source.text = some text) :
    source.Touches ⟨node, text, below⟩ ↔
      ¬ node.endRow source.text + 1 < below.startRow source.text := by
  rw [@endRow_eq _ _ _ below found]
  unfold Touches
  dsimp only
  split <;> omega

section Walk

variable {pair : SyntaxNode × SyntaxNode} {pairs block : List (SyntaxNode × SyntaxNode)}
  {sibling : SyntaxNode} {rest : List SyntaxNode} {found : List (List Char)} {comment : Comment}

theorem commentOf?_of_text? (unskipped : ¬ style.skips node.kind = true)
    (found : node.text? source.text = some text) :
    source.commentOf? style (node, below) = some ⟨node, text, below⟩ := by
  rw [commentOf?, if_neg unskipped, found]
  rfl

theorem not_skips_of_commentOf? (read : source.commentOf? style pair = some comment) :
    ¬ style.skips pair.1.kind = true := by
  intro skipped
  rw [commentOf?, if_pos skipped] at read
  cases read

theorem blockTexts_cons :
    source.blockTexts style (pair :: block) = source.blockTexts style block ++
      (source.commentOf? style pair).toList.map (style.strip ·.text) := by
  rw [blockTexts, comments, List.filterMap_cons]
  cases source.commentOf? style pair with
  | none => exact (List.append_nil _).symm
  | some comment => exact List.reverse_cons

theorem Joins.of_commentOf? (joins : source.Joins style pair)
    (read : source.commentOf? style pair = some comment) :
    style.isComment comment.node.kind comment.text = true ∧ source.Touches comment := by
  rcases joins with skipped | ⟨other, readToo, joins⟩
  · exact absurd skipped (not_skips_of_commentOf? read)
  · cases read.symm.trans readToo
    exact joins

theorem Joins.not_stops (joins : source.Joins style pair) : ¬ source.Stops style pair :=
  fun ⟨_, read, stops⟩ => stops (joins.of_commentOf? read)

theorem block_nil_iff : source.Block style [] block ↔ block = [] := by
  constructor
  · intro ⟨beyond, same, _⟩
    exact (List.append_eq_nil_iff.1 same.symm).1
  · intro empty
    subst empty
    exact ⟨[], rfl, nofun, nofun⟩

theorem Joins.block_cons_iff (joins : source.Joins style pair) :
    source.Block style (pair :: pairs) block ↔
      ∃ more, block = pair :: more ∧ source.Block style pairs more := by
  constructor
  · intro ⟨beyond, same, joined, ended⟩
    cases block with
    | nil =>
        obtain rfl : pair :: pairs = beyond := same
        exact (joins.not_stops (ended pair rfl)).elim
    | cons first more =>
        obtain ⟨rfl, others⟩ := List.cons_eq_cons.1 same
        exact ⟨more, rfl, beyond, others, (List.forall_mem_cons.1 joined).2, ended⟩
  · intro ⟨more, begins, beyond, same, joined, ended⟩
    subst begins
    exact ⟨beyond, congrArg _ same, List.forall_mem_cons.2 ⟨joins, joined⟩, ended⟩

theorem block_cons_iff_of_not_joins (other : ¬ source.Joins style pair) :
    source.Block style (pair :: pairs) block ↔ block = [] ∧ source.Stops style pair := by
  constructor
  · intro ⟨beyond, same, joined, ended⟩
    cases block with
    | nil =>
        obtain rfl : pair :: pairs = beyond := same
        exact ⟨rfl, ended pair rfl⟩
    | cons first more =>
        obtain ⟨rfl, _⟩ := List.cons_eq_cons.1 same
        exact (other (joined pair (.head _))).elim
  · intro ⟨empty, stops⟩
    subst empty
    refine ⟨pair :: pairs, rfl, nofun, fun first same => ?_⟩
    cases same
    exact stops

theorem Joins.commentsAbove? (joins : source.Joins style (sibling, below)) :
    source.commentsAbove? style (below.startRow source.text) (sibling :: rest) =
      (source.commentsAbove? style (sibling.startRow source.text) rest).map
        (· ++ (source.commentOf? style (sibling, below)).toList.map (style.strip ·.text)) := by
  rw [Source.commentsAbove?]
  rcases joins with skipped | ⟨comment, read, isComment, touches⟩
  · rw [if_pos skipped, commentOf?, if_pos skipped]
    simp
  · have unskipped := not_skips_of_commentOf? read
    rw [read]
    rw [commentOf?, if_neg unskipped] at read
    obtain ⟨text, known, rfl⟩ := Option.map_eq_some_iff.1 read
    have near := (touches_iff known).1 touches
    simp only [if_neg unskipped, known]
    rw [if_neg (not_or.2 ⟨by simpa using isComment, near⟩)]
    rfl

theorem commentsAbove?_of_not_joins (other : ¬ source.Joins style (sibling, below)) :
    source.commentsAbove? style (below.startRow source.text) (sibling :: rest) = some found ↔
      found = [] ∧ source.Stops style (sibling, below) := by
  obtain ⟨unskipped, other⟩ := not_or.1 other
  rw [commentsAbove?, if_neg unskipped, Stops]
  cases known : sibling.text? source.text with
  | none => simp [commentOf?, known]
  | some text =>
      have read := @commentOf?_of_text? _ _ _ _ below unskipped known
      have apart : ¬ (style.isComment sibling.kind text = true ∧
          source.Touches ⟨sibling, text, below⟩) := fun joins => other ⟨_, read, joins⟩
      have stops : (!style.isComment sibling.kind text) = true ∨
          sibling.endRow source.text + 1 < below.startRow source.text := by
        by_cases far : sibling.endRow source.text + 1 < below.startRow source.text
        · exact .inr far
        · have otherKind : ¬ style.isComment sibling.kind text = true := fun isComment =>
            apart ⟨isComment, (touches_iff known).2 far⟩
          exact .inl (by simpa using otherKind)
      simp only [if_pos stops, read, Option.some_inj, exists_eq_left', apart, not_false_eq_true,
        and_true]
      exact eq_comm

/-- The comments above a node are those of the block of its siblings. -/
theorem commentsAbove?_eq_some_iff {before : List SyntaxNode} :
    source.commentsAbove? style (below.startRow source.text) before = some found ↔
      ∃ block, source.Block style (before.zip (below :: before)) block ∧
        found = source.blockTexts style block := by
  induction before generalizing below found with
  | nil =>
      simp only [List.zip_nil_left, block_nil_iff, exists_eq_left]
      rw [commentsAbove?, Option.some_inj]
      exact eq_comm
  | cons sibling rest ih =>
      rw [List.zip_cons_cons]
      by_cases joins : source.Joins style (sibling, below)
      · rw [joins.commentsAbove?, Option.map_eq_some_iff]
        simp only [ih, joins.block_cons_iff]
        constructor
        · intro ⟨texts, ⟨block, stands, same⟩, whole⟩
          refine ⟨(sibling, below) :: block, ⟨block, rfl, stands⟩, ?_⟩
          rw [blockTexts_cons, ← same, whole]
        · intro ⟨longer, ⟨block, begins, stands⟩, whole⟩
          refine ⟨source.blockTexts style block, ⟨block, stands, rfl⟩, ?_⟩
          rw [whole, begins, blockTexts_cons]
      · simp only [commentsAbove?_of_not_joins joins, block_cons_iff_of_not_joins joins]
        constructor
        · intro ⟨empty, stops⟩
          exact ⟨[], ⟨rfl, stops⟩, empty⟩
        · intro ⟨block, ⟨empty, stops⟩, whole⟩
          subst empty
          exact ⟨whole, stops⟩

theorem Block.joined (stands : source.Block style pairs block)
    (member : comment ∈ source.comments style block) :
    style.isComment comment.node.kind comment.text = true ∧ source.Touches comment := by
  obtain ⟨_, _, joined, _⟩ := stands
  obtain ⟨pair, inside, read⟩ := List.mem_filterMap.1 member
  exact (joined pair inside).of_commentOf? read

end Walk

/-- A blank line stands below a comment that touches the node below only if the comment includes its line
break, and then that line is all that stands between them. -/
theorem detached_iff {comment : Comment} (touches : source.Touches comment) :
    source.Detached comment ↔ comment.IncludesBreak ∧
      comment.below.startRow source.text = comment.lastRow source + 2 ∧
      source.BlankRow (comment.lastRow source + 1) := by
  unfold Touches at touches
  constructor
  · intro ⟨row, after, before, blank⟩
    by_cases included : comment.IncludesBreak
    · rw [if_pos included] at touches
      obtain rfl : row = comment.lastRow source + 1 := by omega
      exact ⟨included, by omega, blank⟩
    · rw [if_neg included] at touches
      omega
  · intro ⟨_, start, blank⟩
    exact ⟨comment.lastRow source + 1, by omega, by omega, blank⟩

/-- A declaration is documented by the block of siblings above it that are skipped or are comments that touch
what is below them. A blank line stands below a comment of the block just if the comment includes its own
line break and that line is all that stands between it and the node below. -/
theorem docAbove?_eq_some_iff (source : Source) (style : CommentStyle) (cursor : SyntaxCursor)
    (doc : String) :
    source.docAbove? style cursor = some doc ↔
      ∃ block, source.Block style cursor.neighbours block ∧
        Text.trim (Text.unlines (source.blockTexts style block)) ≠ [] ∧
        doc = .ofList (Text.trim (Text.unlines (source.blockTexts style block))) ∧
        ∀ comment ∈ source.comments style block,
          style.isComment comment.node.kind comment.text = true ∧
          (source.Detached comment ↔ comment.IncludesBreak ∧
            comment.below.startRow source.text = comment.lastRow source + 2 ∧
            source.BlankRow (comment.lastRow source + 1)) := by
  rw [docAbove?, Option.bind_eq_some_iff]
  simp only [commentsAbove?_eq_some_iff, nonempty?_eq_some_iff]
  constructor
  · intro ⟨texts, ⟨block, stands, same⟩, nonempty, made⟩
    subst same
    refine ⟨block, stands, nonempty, made, fun comment member => ?_⟩
    obtain ⟨isComment, touches⟩ := stands.joined member
    exact ⟨isComment, detached_iff touches⟩
  · intro ⟨block, stands, nonempty, made, _⟩
    exact ⟨_, ⟨block, stands, rfl⟩, nonempty, made⟩

end Source

/-- A function of Rust below a comment, with a blank line between them. -/
def remark : Source :=
  ⟨"a.rs", "/// Doc.\n\nfn f() {}\n".toList⟩

/-- The comment of the remark, with its line break. -/
def remarkComment : SyntaxNode :=
  ⟨"line_comment", true, none, 0, 9, [⟨"//", false, none, 0, 2, []⟩,
    ⟨"outer_doc_comment_marker", true, some "outer", 2, 3, [⟨"/", false, none, 2, 3, []⟩]⟩,
    ⟨"doc_comment", true, some "doc", 3, 9, []⟩]⟩

def remarkFunction : SyntaxNode :=
  ⟨"function_item", true, none, 10, 19, [⟨"fn", false, none, 10, 12, []⟩,
    ⟨"identifier", true, some "name", 13, 14, []⟩,
    ⟨"parameters", true, some "parameters", 14, 16,
      [⟨"(", false, none, 14, 15, []⟩, ⟨")", false, none, 15, 16, []⟩]⟩,
    ⟨"block", true, some "body", 17, 19,
      [⟨"\x7b", false, none, 17, 18, []⟩, ⟨"\x7d", false, none, 18, 19, []⟩]⟩]⟩

def remarkTree : SyntaxNode :=
  ⟨"source_file", true, none, 0, 20, [remarkComment, remarkFunction]⟩

def remarkSymbol : Symbol where
  column := 0
  doc := some "Doc."
  enclosing := none
  file := "a.rs"
  kind := .function
  line := 3
  name := "f"
  signature := some "fn f()"

/-- The function is documented by a comment although a blank line stands between them. -/
theorem remark_documents_across_blank_line :
    Rust.symbols remark remarkTree = [remarkSymbol] ∧
      remark.docAbove? Rust.commentStyle ⟨remarkFunction, [remarkComment]⟩ = some "Doc." ∧
      remarkComment.text? remark.text = some "/// Doc.\n".toList ∧
      remark.Detached ⟨remarkComment, "/// Doc.\n".toList, remarkFunction⟩ :=
  ⟨by decide +kernel, by decide +kernel, by decide,
    1, by decide, by decide, [], by decide, nofun⟩

end SourceBaseline
