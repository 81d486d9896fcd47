import SourceBaseline.Glob

/-!
# Reading globs

`*` is a run of bytes without `/`, `?` one such byte, `[..]` a set of bytes, `{a,b}` a choice and
`\x` the character `x`. Two stars that make up a whole component stand for any directories. The
pattern is read character by character: `Draft.step` takes one character and `Draft.finish` says
what the end of the pattern means in the state that is reached.
-/

set_option autoImplicit false

namespace SourceBaseline.Glob

/-- A part of a pattern. `leading`, `middle` and `trailing` are two stars at the start of a
pattern or choice, between two separators, and at the end. -/
inductive Token where
  | fixed (glob : Glob)
  | leading
  | middle
  | trailing
  deriving DecidableEq

def slashGlob : Glob := .byte (.single slash)

def Token.glob : Token → Glob
  | .fixed glob => glob
  | .leading => .either (.either .empty slashGlob) (.both .anything slashGlob)
  | .middle => .either slashGlob (.both (.both slashGlob .anything) slashGlob)
  | .trailing => .both slashGlob .anything

def sequence : List Token → Glob
  | [] => .empty
  | first :: rest => rest.foldl (fun glob token => .both glob token.glob) first.glob

def literal (char : Char) : Glob :=
  match String.utf8EncodeChar char with
  | [] => .empty
  | first :: rest =>
      rest.foldl (fun glob byte => .both glob (.byte (.single byte))) (.byte (.single first))

/-- The bytes that a span of characters contributes to a class: a class holds single bytes, so a
span reaches from the last byte of its first character to the first byte of its last one. -/
def spanBytes (first last : Char) : List (UInt8 × UInt8) :=
  let one := fun byte => (byte, byte)
  let start := String.utf8EncodeChar first
  let stop := String.utf8EncodeChar last
  if first = last then start.map one
  else
    start.dropLast.map one ++ [(start.getLast?.getD 0, stop.headD 0)] ++ (stop.drop 1).map one

/-- A class that is being read; `spans` holds the last span first. -/
structure ClassDraft where
  negated : Bool
  fresh : Bool
  untouched : Bool
  inSpan : Bool
  spans : List (Char × Char)

def ClassDraft.start : ClassDraft := ⟨false, true, true, false, []⟩

/-- The finished class; a minus at its end stands for itself. -/
def ClassDraft.glob (draft : ClassDraft) : Glob :=
  let spans := if draft.inSpan then ('-', '-') :: draft.spans else draft.spans
  .byte ⟨draft.negated, spans.reverse.flatMap fun (first, last) => spanBytes first last⟩

/-- Widen the last span up to `char`, unless that turns it around. -/
def ClassDraft.widen? (draft : ClassDraft) (char : Char) : Option ClassDraft :=
  match draft.spans with
  | [] => none
  | (first, _) :: rest =>
      if char < first then none
      else some { draft with spans := (first, char) :: rest, inSpan := false, untouched := false }

def ClassDraft.member? (draft : ClassDraft) (char : Char) : Option ClassDraft :=
  if char = '-' ∧ ¬ draft.untouched ∧ ¬ draft.inSpan then
    some { draft with inSpan := true }
  else if draft.inSpan then draft.widen? char
  else some { draft with spans := (char, char) :: draft.spans, untouched := false }

/-- What the reader is in the middle of. The stars remember the character before them. -/
inductive Mode where
  | plain
  | escape
  | star (before : Option Char)
  | doubleStar (before : Option Char)
  | set (draft : ClassDraft)

/-- A pattern that is being read. `branch` holds the parts of the innermost open choice, the last
part first; `outer` holds the branches around and before it, the nearest first, and `groups` how
many branches there were when each open group began. -/
structure Draft where
  branch : List Token
  outer : List (List Token)
  groups : List Nat
  previous : Option Char
  mode : Mode

namespace Draft

def start : Draft := ⟨[], [], [], none, .plain⟩

def push (draft : Draft) (token : Token) : Draft :=
  { draft with branch := token :: draft.branch }

def branchCount (draft : Draft) : Nat := draft.outer.length + 1

/-- Whether the branch is made of nothing but empty groups. -/
def isBlank (branch : List Token) : Bool :=
  branch.all (· = .fixed .empty)

/-- A choice between branches; blank ones do not count. -/
def choice (branches : List (List Token)) : Glob :=
  match (branches.filter (!isBlank ·)).map fun branch => sequence branch.reverse with
  | [] => .empty
  | first :: rest => rest.foldl .either first

def openGroup (draft : Draft) : Draft :=
  { draft with
    branch := []
    outer := draft.branch :: draft.outer
    groups := draft.branchCount :: draft.groups }

def closeGroup? (draft : Draft) : Option Draft :=
  match draft.groups with
  | [] => none
  | count :: groups =>
      let branches := draft.branch :: draft.outer
      let inner := branches.take (branches.length - count)
      match branches.drop (branches.length - count) with
      | [] => none
      | branch :: outer =>
          some { draft with
            branch := .fixed (choice inner.reverse) :: branch
            outer
            groups }

def plainStep? (draft : Draft) (char : Char) : Option Draft :=
  let next := { draft with previous := some char, mode := .plain }
  match char with
  | '?' => some (next.push (.fixed (.byte .withoutSlash)))
  | '*' => some { next with mode := .star draft.previous }
  | '[' => some { next with mode := .set .start }
  | '\x7b' => some next.openGroup
  | '\x7d' => next.closeGroup?
  | ',' =>
      if draft.groups = [] then some (next.push (.fixed (literal ',')))
      else some { next with branch := [], outer := draft.branch :: draft.outer }
  | '\\' => some { next with mode := .escape }
  | _ => some (next.push (.fixed (literal char)))

/-- Two stars after a separator: they swallow it, and fold with stars before it. -/
def fold (draft : Draft) (token : Token) : Draft :=
  match draft.branch with
  | .leading :: _ => draft
  | .trailing :: _ => draft
  | _ :: rest => { draft with branch := token :: rest }
  | [] => draft

/-- Whether two stars after `before` cannot make up a component of their own. -/
def sticksTo (draft : Draft) (before : Option Char) : Bool :=
  before ≠ some '/' ∧ (draft.branchCount ≤ 1 ∨ (before ≠ some ',' ∧ before ≠ some '\x7b'))

def doubleStarStep? (draft : Draft) (before : Option Char) (char : Char) : Option Draft :=
  let next := { draft with previous := some char, mode := .plain }
  if draft.branch = [] then
    if char = '/' then some (next.push .leading) else (draft.push (.fixed .run)).plainStep? char
  else if draft.sticksTo before then (draft.push (.fixed .run)).plainStep? char
  else if (char = ',' ∨ char = '\x7d') ∧ 2 ≤ draft.branchCount then
    (draft.fold .trailing).plainStep? char
  else if char = '/' then some (next.fold .middle)
  else (draft.push (.fixed .run)).plainStep? char

def classStep? (draft : Draft) (set : ClassDraft) (char : Char) : Option Draft :=
  let next := { draft with previous := some char }
  if set.fresh ∧ (char = '!' ∨ char = '^') then
    some { next with mode := .set { set with negated := true, fresh := false } }
  else if char = ']' ∧ ¬ set.untouched then
    some (({ next with mode := .plain } : Draft).push (.fixed set.glob))
  else
    (({ set with fresh := false }).member? char).map fun changed =>
      { next with mode := .set changed }

def step? (draft : Draft) (char : Char) : Option Draft :=
  match draft.mode with
  | .plain => draft.plainStep? char
  | .escape =>
      some (({ draft with previous := some char, mode := .plain } : Draft).push
        (.fixed (literal char)))
  | .star before =>
      if char = '*' then some { draft with previous := some char, mode := .doubleStar before }
      else (draft.push (.fixed .run)).plainStep? char
  | .doubleStar before => draft.doubleStarStep? before char
  | .set set => draft.classStep? set char

def finish? (draft : Draft) : Option (List Token) :=
  if draft.outer ≠ [] then none
  else
    match draft.mode with
    | .plain => some draft.branch.reverse
    | .escape | .set _ => none
    | .star _ => some (draft.push (.fixed .run)).branch.reverse
    | .doubleStar before =>
        if draft.branch = [] then some [.leading]
        else if draft.sticksTo before then some (draft.push (.fixed .run)).branch.reverse
        else some (draft.fold .trailing).branch.reverse

end Draft

/-- Read a pattern. Two stars alone match everything. -/
def parse? (pattern : List Char) : Option Glob :=
  ((pattern.foldlM Draft.step? .start).bind Draft.finish?).map fun tokens =>
    if tokens = [.leading] then .anything else sequence tokens

end SourceBaseline.Glob
