import SourceBaseline.Glob.Parser
import SourceBaseline.Text.Blank

/-!
# Exclude rules

Built-in rules and rules of the user, matched against relative paths with `/` between names. A rule
`**/X` matches `X` at any depth, `X/**` matches the directory `X` and all below it, and any other
rule is a glob over the whole path. `ExcludeRule.accepts_anyDepth` and `accepts_subtree` say so of
the glob that each rule becomes. A rule that cannot be read is left out, so rules only add:
`Exclude.isExcluded_iff` says that a path is excluded if and only if some rule matches it.
-/

set_option autoImplicit false

namespace SourceBaseline

/-- The rules in force in every project, ahead of the rules of the user. -/
def builtInExcludes : List String := [
  "**/.git/**",
  "**/.hg/**",
  "**/.svn/**",
  "**/node_modules/**",
  "**/bower_components/**",
  "**/vendor/bundle/**",
  "**/.venv/**",
  "**/venv/**",
  "**/__pycache__/**",
  "**/.mypy_cache/**",
  "**/.pytest_cache/**",
  "**/.ruff_cache/**",
  "**/.tox/**",
  "**/.cache/**",
  "**/target/**",
  "**/dist/**",
  "**/build/**",
  "**/*.pyc",
  "**/.env",
  "**/.env.*",
  "**/*.pem",
  "**/*.key",
  "**/id_rsa*",
  "**/*.log",
  "**/.DS_Store",
  "**/.driftline/**"]

inductive ExcludeRule where
  | anyDepth (rule : ExcludeRule)
  | plain (glob : Glob)
  | subtree (glob : Glob)
  deriving DecidableEq, Inhabited

/-- The prefixes of a path that end before a `/`, and the path itself. -/
def leadingPaths : List UInt8 → List (List UInt8)
  | [] => [[]]
  | byte :: rest =>
      let longer := (leadingPaths rest).map (byte :: ·)
      if byte = slash then [] :: longer else longer

def afterSlashes : List UInt8 → List (List UInt8)
  | [] => []
  | byte :: rest => if byte = slash then rest :: afterSlashes rest else afterSlashes rest

/-- The path itself, and what follows each `/`. -/
def trailingPaths (path : List UInt8) : List (List UInt8) :=
  path :: afterSlashes path

theorem mem_afterSlashes_iff {path rest : List UInt8} :
    rest ∈ afterSlashes path ↔ ∃ start, path = start ++ slash :: rest := by
  induction path with
  | nil => simp [afterSlashes]
  | cons byte path ih =>
      rw [afterSlashes]
      constructor
      · intro member
        split at member
        next separator =>
          rcases List.mem_cons.1 member with rfl | member
          · exact ⟨[], by simp [separator]⟩
          · obtain ⟨start, rfl⟩ := ih.1 member
            exact ⟨byte :: start, rfl⟩
        next =>
          obtain ⟨start, rfl⟩ := ih.1 member
          exact ⟨byte :: start, rfl⟩
      · rintro ⟨start, same⟩
        cases start with
        | nil =>
            obtain ⟨rfl, rfl⟩ := List.cons.inj same
            simp
        | cons first start =>
            obtain ⟨rfl, rfl⟩ := List.cons.inj same
            have member := ih.2 ⟨start, rfl⟩
            split
            · exact List.mem_cons_of_mem _ member
            · exact member

theorem mem_leadingPaths_iff {path start : List UInt8} :
    start ∈ leadingPaths path ↔ path = start ∨ ∃ rest, path = start ++ slash :: rest := by
  induction path generalizing start with
  | nil => simp [leadingPaths, eq_comm]
  | cons byte path ih =>
      -- Either the path itself ends here, or what leads is longer by the first byte.
      have longer : start ∈ (leadingPaths path).map (byte :: ·) ↔
          ∃ shorter, start = byte :: shorter ∧
            (path = shorter ∨ ∃ rest, path = shorter ++ slash :: rest) := by
        simp only [List.mem_map, ih, @eq_comm _ _ start, and_comm]
      rw [leadingPaths]
      constructor
      · intro member
        have cases : (byte = slash ∧ start = []) ∨ start ∈ (leadingPaths path).map (byte :: ·) := by
          split at member
          next separator =>
            rcases List.mem_cons.1 member with rfl | member
            · exact .inl ⟨separator, rfl⟩
            · exact .inr member
          next => exact .inr member
        rcases cases with ⟨rfl, rfl⟩ | member
        · exact .inr ⟨path, rfl⟩
        · obtain ⟨shorter, rfl, rfl | ⟨rest, rfl⟩⟩ := longer.1 member
          · exact .inl rfl
          · exact .inr ⟨rest, rfl⟩
      · intro reached
        have member :
            (byte = slash ∧ start = []) ∨ start ∈ (leadingPaths path).map (byte :: ·) := by
          rcases reached with rfl | ⟨rest, same⟩
          · exact .inr (longer.2 ⟨path, rfl, .inl rfl⟩)
          · cases start with
            | nil => exact .inl ⟨(List.cons.inj same).1, rfl⟩
            | cons first start =>
                obtain ⟨rfl, rfl⟩ := List.cons.inj same
                exact .inr (longer.2 ⟨start, rfl, .inr ⟨rest, rfl⟩⟩)
        rcases member with ⟨rfl, rfl⟩ | member
        · simp
        · split
          · exact List.mem_cons_of_mem _ member
          · exact member

theorem matches_slashGlob_iff {text : List UInt8} :
    Glob.Matches Glob.slashGlob text ↔ text = [slash] := by
  constructor
  · intro matched
    cases matched with
    | @byte _ char inside =>
        have : char = slash := by
          simp only [ByteClass.contains, ByteClass.single, List.any_cons, List.any_nil] at inside
          simp at inside
          exact UInt8.le_antisymm inside.2 inside.1
        rw [this]
  · rintro rfl
    exact .byte (by decide)
namespace ExcludeRule

/-- Read a rule without the `**/` forms in front. -/
def compileBase? (pattern : List Char) : Option ExcludeRule :=
  match Text.beforeSuffix? "/**".toList pattern with
  | some (char :: dir) => (Glob.parse? (char :: dir)).map .subtree
  | _ => (Glob.parse? pattern).map .plain

def compile? : List Char → Option ExcludeRule
  | '*' :: '*' :: '/' :: char :: rest => (compile? (char :: rest)).map .anyDepth
  | pattern => compileBase? pattern

def glob : ExcludeRule → Glob
  | .anyDepth rule => .both (.either .empty (.both .anything Glob.slashGlob)) rule.glob
  | .plain glob => glob
  | .subtree glob => .both glob (.either .empty (.both Glob.slashGlob .anything))

def accepts (rule : ExcludeRule) (path : List UInt8) : Bool :=
  rule.glob.accepts path

theorem accepts_plain {glob : Glob} {path : List UInt8} :
    (plain glob).accepts path = glob.accepts path := rfl

/-- A rule at any depth excludes the paths that end in one that the rule excludes. -/
theorem accepts_anyDepth {rule : ExcludeRule} {path : List UInt8} :
    (anyDepth rule).accepts path = (trailingPaths path).any rule.accepts := by
  rw [Bool.eq_iff_iff, List.any_eq_true]
  simp only [accepts, glob, Glob.accepts_iff, trailingPaths, List.mem_cons, mem_afterSlashes_iff]
  constructor
  · intro matched
    cases matched with
    | @both _ _ left right lead matched =>
        refine ⟨right, ?_, matched⟩
        cases lead with
        | left lead => cases lead; exact .inl rfl
        | right lead =>
            cases lead with
            | @both _ _ start separator _ separated =>
                rw [matches_slashGlob_iff.1 separated]
                exact .inr ⟨start, by simp⟩
  · rintro ⟨rest, rfl | ⟨start, rfl⟩, matched⟩
    · exact .both (.left .empty) matched
    · have lead := Glob.Matches.both (@Glob.Matches.anything start) (matches_slashGlob_iff.2 rfl)
      simpa using Glob.Matches.both (.right lead) matched

/-- A rule for a subtree excludes the paths that begin with one that its glob accepts. -/
theorem accepts_subtree {glob : Glob} {path : List UInt8} :
    (subtree glob).accepts path = (leadingPaths path).any glob.accepts := by
  rw [Bool.eq_iff_iff, List.any_eq_true]
  simp only [accepts, ExcludeRule.glob, Glob.accepts_iff, mem_leadingPaths_iff]
  constructor
  · intro matched
    cases matched with
    | @both _ _ left right matched tail =>
        refine ⟨left, ?_, matched⟩
        cases tail with
        | left tail => cases tail; exact .inl (by simp)
        | right tail =>
            cases tail with
            | @both _ _ separator rest separated _ =>
                rw [matches_slashGlob_iff.1 separated]
                exact .inr ⟨rest, by simp⟩
  · rintro ⟨start, rfl | ⟨rest, rfl⟩, matched⟩
    · simpa using Glob.Matches.both matched (.left .empty)
    · have tail := Glob.Matches.both (matches_slashGlob_iff.2 rfl) (@Glob.Matches.anything rest)
      exact .both matched (.right tail)

end ExcludeRule

structure Exclude where
  rules : List (String × ExcludeRule)
  deriving DecidableEq, Inhabited

namespace Exclude

/-- A rule without blanks around it and without `./` in front. -/
def tidy (pattern : String) : List Char :=
  Text.dropLeading ['.', '/'] (Text.trim pattern.toList)

def rule? (pattern : String) : Option (String × ExcludeRule) :=
  match tidy pattern with
  | [] => none
  | text => (ExcludeRule.compile? text).map fun rule => (.ofList text, rule)

/-- The built-in rules followed by those of the user that can be read. -/
def withUserRules (user : List String) : Exclude :=
  ⟨(builtInExcludes ++ user).filterMap rule?⟩

def patterns (exclude : Exclude) : List String :=
  exclude.rules.map Prod.fst

def pathBytes (relative : String) : List UInt8 :=
  (Text.dropLeading ['.', '/'] relative.toList).flatMap String.utf8EncodeChar

def isExcluded (exclude : Exclude) (relative : String) : Bool :=
  let path := pathBytes relative
  exclude.rules.any fun rule => rule.2.accepts path

theorem isExcluded_iff {exclude : Exclude} {relative : String} :
    exclude.isExcluded relative = true ↔
      ∃ rule ∈ exclude.rules, rule.2.accepts (pathBytes relative) = true := by
  simp [isExcluded]

end Exclude

end SourceBaseline
