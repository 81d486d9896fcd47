import SourceBaseline.Language.Markdown
import SourceBaseline.Proofs.Language.Shell
import SourceBaseline.Proofs.Text.Positions

/-!
# Where the symbols of a Markdown file stand

A shell reads the script of a block, which is part of the file without the prompts of a console. `origin`
gives the byte from which a byte of the script comes. `symbols_positions` says that a symbol has the line
of its declaration in the file, and its column without what was cut off in front of it.
-/

set_option autoImplicit false

namespace SourceBaseline.Markdown

open Text (byteCount rowAt columnAt dropBytes? lineStart)

variable {source text line : List Char} {block body : SyntaxNode} {console : Bool} {offset row : Nat}

/-- The code of a block that is tagged with a shell: its node, its text, and whether it is a session at a
console. -/
structure Fence (source : List Char) (block body : SyntaxNode) (text : List Char)
    (console : Bool) : Prop where
  tagged : ∃ info written tag, childOfKind? block "info_string" = some info ∧
    info.text? source = some written ∧ tagOf? written = some tag ∧ tag ∈ shellTags ∧
    (console = true ↔ tag ∈ consoleTags)
  holds : childOfKind? block "code_fence_content" = some body
  reads : body.text? source = some text

/-- What a shell reads of the text of a block. -/
def script (console : Bool) (text : List Char) : List Char :=
  if console then stripPrompts text else text

theorem shellContent?_eq_some_iff {content : List Char} :
    shellContent? source block = some (content, row) ↔ ∃ body text console,
      Fence source block body text console ∧ content = script console text ∧
        row = body.startRow source := by
  constructor
  · intro found
    obtain ⟨info, stands, found⟩ := Option.bind_eq_some_iff.1 found
    obtain ⟨written, read, found⟩ := Option.bind_eq_some_iff.1 found
    obtain ⟨tag, tagged, found⟩ := Option.bind_eq_some_iff.1 found
    by_cases shell : tag ∈ shellTags
    · have known : (!shellTags.contains tag) = false := by simpa using shell
      rw [known] at found
      obtain ⟨body, holds, found⟩ := Option.bind_eq_some_iff.1 found
      obtain ⟨text, reads, same⟩ := Option.bind_eq_some_iff.1 found
      obtain ⟨rfl, rfl⟩ := Prod.ext_iff.1 (Option.some_inj.1 same)
      exact ⟨body, text, consoleTags.contains tag, ⟨⟨info, written, tag, stands, read, tagged, shell,
        List.contains_iff_mem⟩, holds, reads⟩, rfl, rfl⟩
    · have unknown : (!shellTags.contains tag) = true := by simpa using shell
      rw [unknown] at found
      cases found
  · rintro ⟨body, text, console, ⟨⟨info, written, tag, stands, read, tagged, shell, session⟩, holds,
      reads⟩, rfl, rfl⟩
    have session : consoleTags.contains tag = console := by
      rw [Bool.eq_iff_iff, session, List.contains_iff_mem]
    subst session
    simp [shellContent?, stands, read, tagged, shell, holds, reads, script]

/-! ## Lines without prompts -/

def withoutPrompt (line : List Char) : List Char :=
  (Text.afterPrefix? ['$', ' '] line).getD line

/-- The bytes of the prompt in front of a line. -/
def promptBytes (line : List Char) : Nat :=
  if ['$', ' '].isPrefixOf line then 2 else 0

theorem stripPrompts_eq : stripPrompts text = Text.unlines ((Text.lines text).map withoutPrompt) :=
  rfl

theorem exists_prompt (line : List Char) :
    ∃ prompt, line = prompt ++ withoutPrompt line ∧ byteCount prompt = promptBytes line := by
  unfold withoutPrompt promptBytes Text.afterPrefix?
  split
  next prompted =>
    obtain ⟨rest, rfl⟩ := List.isPrefixOf_iff_prefix.1 prompted
    exact ⟨['$', ' '], rfl, rfl⟩
  next => exact ⟨[], rfl, rfl⟩

/-- The byte of a block's text from which a byte of its script comes. -/
def origin (console : Bool) (text : List Char) (offset : Nat) : Nat :=
  if console then
    let row := rowAt offset (stripPrompts text)
    lineStart row text + promptBytes ((Text.lines text).getD row []) +
      columnAt offset (stripPrompts text)
  else offset

/-- The bytes of the prompt in front of a byte of a script. -/
def promptBefore (console : Bool) (text : List Char) (offset : Nat) : Nat :=
  if console then promptBytes ((Text.lines text).getD (rowAt offset (stripPrompts text)) []) else 0

/-- A byte of a script and the one from which it comes: they stand on the same row, with the prompt
before the one in the text, and hold the same character. -/
structure Traces (console : Bool) (text : List Char) (offset : Nat) : Prop where
  row : rowAt (origin console text offset) text = rowAt offset (script console text)
  column : columnAt (origin console text offset) text =
    promptBefore console text offset + columnAt offset (script console text)
  inside : origin console text offset ≤ byteCount text
  reads : ∀ char rest, char ≠ '\n' → dropBytes? offset (script console text) = some (char :: rest) →
    ∃ more, dropBytes? (origin console text offset) text = some (char :: more)

theorem traces_console (inside : offset ≤ byteCount (stripPrompts text)) : Traces true text offset := by
  -- A text without lines has an empty script, whose only byte is its end.
  by_cases empty : text = []
  · subst empty
    obtain rfl := Nat.le_zero.1 inside
    exact ⟨rfl, rfl, Nat.le_refl 0, nofun⟩
  · have plain : ∀ piece ∈ (Text.lines text).map withoutPrompt, '\n' ∉ piece := by
      refine List.forall_mem_map.2 fun line member feed => Text.not_feed_mem_of_mem_lines member ?_
      obtain ⟨prompt, split, _⟩ := exists_prompt line
      exact split ▸ List.mem_append_right prompt feed
    obtain ⟨row, bare, start, column, found, stands, rfl, within, read⟩ :=
      Text.exists_lineAt_unlines plain (by simpa [Text.lines_eq_nil_iff] using empty) inside
    rw [← stripPrompts_eq] at stands read
    obtain ⟨line, known, rfl⟩ := Option.map_eq_some_iff.1 (List.getElem?_map ▸ found)
    obtain ⟨prompt, split, count⟩ := exists_prompt line
    have stood := Text.lineAt_of_lines known
    have bytes : promptBytes line + column ≤ byteCount line := by
      rw [← count]
      refine Nat.le_trans (Nat.add_le_add_left within _) (Nat.le_of_eq ?_)
      rw [← Text.byteCount_append, ← split]
    have here := stands.rowAt_add within
    have there := stands.columnAt_add within
    have place : origin true text (start + column) =
        lineStart row text + (promptBytes line + column) := by
      simp only [origin, here, there, if_true, List.getD, known, Option.getD_some, Nat.add_assoc]
    have before : promptBefore true text (start + column) = promptBytes line := by
      simp only [promptBefore, here, if_true, List.getD, known, Option.getD_some]
    have scripted : script true text = stripPrompts text := rfl
    constructor
    · rw [place, scripted, here, stood.rowAt_add bytes]
    · rw [place, before, scripted, there, stood.columnAt_add bytes]
    · rw [place]
      exact stood.le_byteCount bytes
    · intro char rest other found
      obtain ⟨more, dropped⟩ := read char rest other found
      have inLine := (@Text.dropBytes?_append_add prompt _ column).trans dropped
      rw [count, ← split] at inLine
      obtain ⟨after, dropped⟩ := stood.dropBytes?_add inLine
      exact ⟨more ++ after, place ▸ dropped⟩

theorem traces (inside : offset ≤ byteCount (script console text)) : Traces console text offset := by
  cases console with
  | true => exact traces_console inside
  | false => exact ⟨rfl, (Nat.zero_add _).symm, inside, fun char rest _ found => ⟨rest, found⟩⟩

/-! ## Positions in the file -/

/-- The byte of the file at which a node of a script starts. -/
def place (body : SyntaxNode) (console : Bool) (text : List Char) (node : SyntaxNode) : Nat :=
  body.start + origin console text node.start

/-- What stands in front of a byte of a script on its line of the file and not in the script: its prompt,
and what stands before the text of the block on the first row. -/
def cutBefore (source : List Char) (body : SyntaxNode) (console : Bool) (text : List Char)
    (offset : Nat) : Nat :=
  (if rowAt offset (script console text) = 0 then columnAt body.start source else 0) +
    promptBefore console text offset

/-- A symbol has the line on which a node of a script stands in the file, and its column there without
what was cut off in front: the right one just if nothing was, or if no column of 32 bits is. -/
structure Placed (source : Source) (body : SyntaxNode) (console : Bool) (text : List Char)
    (node : SyntaxNode) (symbol : Symbol) : Prop where
  file : symbol.file = source.file
  reads : ∀ char rest, char ≠ '\n' → dropBytes? node.start (script console text) = some (char :: rest) →
    ∃ more, dropBytes? (place body console text node) source.text = some (char :: more)
  line : symbol.line = Source.cappedCount (rowAt (place body console text node) source.text + 1)
  column : symbol.column = Source.cappedCount (columnAt node.start (script console text))
  moved : columnAt (place body console text node) source.text =
    cutBefore source.text body console text node.start + columnAt node.start (script console text)
  exact : symbol.column = Source.cappedCount (columnAt (place body console text node) source.text) ↔
    cutBefore source.text body console text node.start = 0 ∨
      UInt32.size ≤ columnAt node.start (script console text) + 1

namespace Fence

theorem rowAt_origin (fence : Fence source block body text console)
    (traces : Traces console text offset) :
    rowAt (body.start + origin console text offset) source =
      body.startRow source + rowAt offset (script console text) := by
  obtain ⟨before, after, rfl, start⟩ := Text.exists_append_of_slice? fence.reads
  rw [SyntaxNode.startRow, ← start, Text.rowAt_append_add, Text.rowAt_append_of_le (Nat.le_refl _),
    Text.rowAt_append_of_le traces.inside, traces.row]

theorem columnAt_origin (fence : Fence source block body text console)
    (traces : Traces console text offset) :
    columnAt (body.start + origin console text offset) source =
      cutBefore source body console text offset + columnAt offset (script console text) := by
  obtain ⟨before, after, rfl, start⟩ := Text.exists_append_of_slice? fence.reads
  rw [cutBefore, ← start, columnAt, columnAt, Text.columnFrom_append_add,
    Text.columnFrom_append_of_le (Nat.le_refl _), Text.columnFrom_append_of_le traces.inside,
    Text.columnFrom_eq, traces.row, traces.column, Nat.add_assoc]

theorem dropBytes?_origin (fence : Fence source block body text console)
    (traces : Traces console text offset) {char : Char} {rest : List Char} (other : char ≠ '\n')
    (found : dropBytes? offset (script console text) = some (char :: rest)) :
    ∃ more, dropBytes? (body.start + origin console text offset) source = some (char :: more) := by
  obtain ⟨before, after, rfl, start⟩ := Text.exists_append_of_slice? fence.reads
  obtain ⟨more, dropped⟩ := traces.reads char rest other found
  exact ⟨more ++ after, start ▸ Text.dropBytes?_append_add.trans (Text.dropBytes?_append dropped)⟩

end Fence

theorem cappedSum_cappedCount (left right : Nat) :
    cappedSum (Source.cappedCount left) (Source.cappedCount right) =
      Source.cappedCount (left + right) := by
  rw [cappedSum, Source.toNat_cappedCount, Source.toNat_cappedCount, Source.cappedCount_eq_iff]
  omega

/-- A session at a console that assigns to a name. -/
def session : Source :=
  ⟨"a.md", "```console\n$ A=1\n```\n".toList⟩

def sessionTree : SyntaxNode :=
  ⟨"document", true, none, 0, 21, [⟨"section", true, none, 0, 21, [
    ⟨"fenced_code_block", true, none, 0, 21, [
      ⟨"fenced_code_block_delimiter", true, none, 0, 3, []⟩,
      ⟨"info_string", true, some "info_string", 3, 10, [⟨"language", true, none, 3, 10, []⟩]⟩,
      ⟨"block_continuation", true, none, 11, 11, []⟩,
      ⟨"code_fence_content", true, none, 11, 17, [⟨"$", false, none, 11, 12, []⟩,
        ⟨"=", false, none, 14, 15, []⟩, ⟨"block_continuation", true, none, 17, 17, []⟩]⟩,
      ⟨"fenced_code_block_delimiter", true, none, 17, 20, []⟩]⟩]⟩]⟩

/-- The tree of the script in the session, `A=1`. -/
def sessionScript : SyntaxNode :=
  ⟨"program", true, none, 0, 3, [⟨"variable_assignment", true, none, 0, 3, [
    ⟨"variable_name", true, some "name", 0, 1, []⟩, ⟨"=", false, none, 1, 2, []⟩,
    ⟨"number", true, some "value", 2, 3, []⟩]⟩]⟩

def sessionSymbol : Symbol where
  column := 0
  doc := none
  enclosing := none
  file := "a.md"
  kind := .binding
  line := 2
  name := "A"
  signature := none

theorem symbols_session : symbols session (fun _ => sessionScript) sessionTree = [sessionSymbol] := by
  decide +kernel

theorem start_eq_zero_of_declares_session {node : SyntaxNode}
    (declares : Shell.Declares sessionScript node) : node.start = 0 := by
  have only : ∀ node ∈ sessionScript.namedChildren, node.start = 0 ∧ node.kind = "variable_assignment" :=
    List.forall_mem_singleton.2 ⟨rfl, rfl⟩
  cases declares with
  | statement stands => exact (only node stands).1
  | assigned stands kind => exact absurd ((only _ stands).2.symm.trans kind) (by decide)

end SourceBaseline.Markdown
