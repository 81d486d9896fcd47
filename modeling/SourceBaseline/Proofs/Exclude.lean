import Mathlib.Data.List.Infix
import SourceBaseline.Exclude

/-!
# What exclude rules reach

A rule `**/X` goes on matching a path that is put below other directories, and a rule `X/**` matches
all that is below a path that it matches, however the two forms are nested. A set of rules excludes what
one of its rules excludes, so that rules of the user only add, in any order.
-/

set_option autoImplicit false

namespace SourceBaseline

namespace ExcludeRule

variable {rule : ExcludeRule} {pattern : List Char}

/-- Whether a rule is for a subtree, at a place or at any depth. -/
def isSubtree : ExcludeRule → Bool
  | anyDepth rule => rule.isSubtree
  | plain _ => false
  | subtree _ => true

/-- The rule excludes everything below what it excludes. -/
def ReachesBelow (rule : ExcludeRule) : Prop :=
  ∀ above rest : List UInt8, rule.accepts above = true →
    rule.accepts (above ++ slash :: rest) = true

theorem ReachesBelow.anyDepth (reaches : rule.ReachesBelow) : (anyDepth rule).ReachesBelow := by
  intro above rest accepted
  rw [accepts_anyDepth, List.any_eq_true] at accepted ⊢
  obtain ⟨part, member, accepted⟩ := accepted
  refine ⟨part ++ slash :: rest, ?_, reaches part rest accepted⟩
  rcases List.mem_cons.1 member with rfl | inner
  · exact .head _
  · obtain ⟨start, rfl⟩ := mem_afterSlashes_iff.1 inner
    exact .tail _ (mem_afterSlashes_iff.2 ⟨start, by simp⟩)

theorem reachesBelow_subtree (glob : Glob) : (subtree glob).ReachesBelow := by
  intro above rest accepted
  rw [accepts_subtree, List.any_eq_true] at accepted ⊢
  obtain ⟨part, member, accepted⟩ := accepted
  refine ⟨part, mem_leadingPaths_iff.2 (.inr ?_), accepted⟩
  rcases mem_leadingPaths_iff.1 member with rfl | ⟨more, rfl⟩
  · exact ⟨rest, rfl⟩
  · exact ⟨more ++ slash :: rest, by simp⟩

theorem reachesBelow_of_isSubtree (subtree : rule.isSubtree = true) : rule.ReachesBelow := by
  induction rule with
  | plain glob => cases subtree
  | anyDepth rule ih => exact (ih subtree).anyDepth
  | subtree glob => exact reachesBelow_subtree glob

theorem reachesBelow_anything : (plain .anything).ReachesBelow := by
  intro above rest _
  exact Glob.accepts_iff.2 .anything

theorem reachesBelow_rooted : (plain (.both Glob.slashGlob .anything)).ReachesBelow := by
  intro above rest accepted
  rw [accepts_plain, Glob.accepts_iff] at accepted ⊢
  cases accepted with
  | both opened _ =>
      rw [List.append_assoc]
      exact .both opened .anything

theorem compileBase?_of_suffix {dir : List Char} :
    compileBase? (dir ++ "/**".toList) =
      if dir = [] then some (plain (.both Glob.slashGlob .anything))
      else (Glob.parse? dir).map subtree := by
  have before : Text.beforeSuffix? "/**".toList (dir ++ "/**".toList) = some dir := by
    rw [Text.beforeSuffix?, if_pos (List.isSuffixOf_iff_suffix.2 ⟨dir, rfl⟩)]
    simp
  rw [compileBase?, before]
  cases dir with
  | nil => rfl
  | cons char dir => rfl

/-- A pattern that ends in `/**` is read as a rule that reaches below, also where the stars at its start
and those at its end share a separator. -/
theorem reachesBelow_of_compile? (compiled : compile? pattern = some rule)
    (ending : "/**".toList <:+ pattern) : rule.ReachesBelow := by
  fun_induction compile? pattern generalizing rule with
  | case1 char rest ih =>
      obtain ⟨inner, compiledToo, rfl⟩ := Option.map_eq_some_iff.1 compiled
      have endings : char :: rest = ['*', '*'] ∨ "/**".toList <:+ char :: rest := by
        simpa [List.suffix_cons_iff, eq_comm] using ending
      rcases endings with stars | ending
      · rw [stars] at compiledToo
        obtain rfl : plain .anything = inner := Option.some.inj compiledToo
        exact reachesBelow_anything.anyDepth
      · exact (ih compiledToo ending).anyDepth
  | case2 pattern =>
      obtain ⟨dir, rfl⟩ := ending
      rw [compileBase?_of_suffix] at compiled
      split at compiled
      next =>
        cases compiled
        exact reachesBelow_rooted
      next =>
        obtain ⟨glob, _, rfl⟩ := Option.map_eq_some_iff.1 compiled
        exact reachesBelow_subtree glob

/-- A rule at any depth excludes what it excludes below other directories as well. -/
theorem accepts_anyDepth_below {above path : List UInt8} (accepted : (anyDepth rule).accepts path = true) :
    (anyDepth rule).accepts (above ++ slash :: path) = true := by
  rw [accepts_anyDepth, List.any_eq_true] at accepted ⊢
  obtain ⟨part, member, accepted⟩ := accepted
  refine ⟨part, .tail _ (mem_afterSlashes_iff.2 ?_), accepted⟩
  rcases List.mem_cons.1 member with rfl | inner
  · exact ⟨above, rfl⟩
  · obtain ⟨start, rfl⟩ := mem_afterSlashes_iff.1 inner
    exact ⟨above ++ slash :: start, by simp⟩

theorem accepts_of_compile?_anyDepth {text : List Char} {above path : List UInt8}
    (compiled : compile? ("**/".toList ++ text) = some rule) (accepted : rule.accepts path = true) :
    rule.accepts (above ++ slash :: path) = true := by
  cases text with
  | nil =>
      obtain rfl : plain .anything = rule := Option.some.inj compiled
      exact Glob.accepts_iff.2 .anything
  | cons char rest =>
      obtain ⟨inner, _, rfl⟩ := Option.map_eq_some_iff.1 compiled
      exact accepts_anyDepth_below accepted

end ExcludeRule

namespace Exclude

variable {user others : List String} {relative : String}

/-- One rule on its own; no rule at all if it cannot be read. -/
def only (pattern : String) : Exclude :=
  ⟨(rule? pattern).toList⟩

theorem isExcluded_only_iff {pattern : String} :
    (only pattern).isExcluded relative = true ↔
      ∃ rule, rule? pattern = some rule ∧ rule.2.accepts (pathBytes relative) = true := by
  simp [isExcluded_iff, only]

theorem isExcluded_withUserRules_iff :
    (withUserRules user).isExcluded relative = true ↔
      ∃ pattern ∈ builtInExcludes ++ user, (only pattern).isExcluded relative = true := by
  simp only [isExcluded_only_iff]
  simp only [isExcluded_iff, withUserRules, List.mem_filterMap]
  constructor
  · rintro ⟨rule, ⟨pattern, member, read⟩, accepted⟩
    exact ⟨pattern, member, rule, read, accepted⟩
  · rintro ⟨pattern, member, rule, read, accepted⟩
    exact ⟨rule, ⟨pattern, member, read⟩, accepted⟩

/-- Of the rules of the user, only those that can be read count. -/
theorem isExcluded_withUserRules_mono
    (among : ∀ pattern ∈ user, rule? pattern ≠ none → pattern ∈ others)
    (excluded : (withUserRules user).isExcluded relative = true) :
    (withUserRules others).isExcluded relative = true := by
  rw [isExcluded_withUserRules_iff] at excluded ⊢
  obtain ⟨pattern, member, excluded⟩ := excluded
  refine ⟨pattern, ?_, excluded⟩
  rcases List.mem_append.1 member with builtIn | own
  · exact List.mem_append_left _ builtIn
  · obtain ⟨rule, read, _⟩ := isExcluded_only_iff.1 excluded
    exact List.mem_append_right _ (among pattern own (read ▸ nofun))

/-- A rule `**/X` excludes, below every directory, the paths that it excludes. A rule that ends in `/**`
excludes what is below them. A path is excluded just if one of the built-in rules or of the rules of the
user does so on its own, so that rules of the user only add, and neither their order nor those that cannot
be read have any influence. -/
theorem rules_reach_and_add :
    (∀ text rule, ExcludeRule.compile? ("**/".toList ++ text) = some rule →
      ∀ above path, rule.accepts path = true → rule.accepts (above ++ slash :: path) = true) ∧
    (∀ text rule, ExcludeRule.compile? (text ++ "/**".toList) = some rule →
      ∀ path below, rule.accepts path = true → rule.accepts (path ++ slash :: below) = true) ∧
    (∀ user relative, (withUserRules user).isExcluded relative = true ↔
      ∃ pattern ∈ builtInExcludes ++ user, (only pattern).isExcluded relative = true) ∧
    (∀ user others relative, (∀ pattern ∈ user, rule? pattern ≠ none → pattern ∈ others) →
      (withUserRules user).isExcluded relative = true →
      (withUserRules others).isExcluded relative = true) ∧
    ∀ user others relative,
      (∀ pattern, rule? pattern ≠ none → (pattern ∈ user ↔ pattern ∈ others)) →
      (withUserRules user).isExcluded relative = (withUserRules others).isExcluded relative := by
  refine ⟨fun text rule compiled above path => ExcludeRule.accepts_of_compile?_anyDepth compiled, ?_,
    fun user relative => isExcluded_withUserRules_iff,
    fun user others relative => isExcluded_withUserRules_mono, ?_⟩
  · intro text rule compiled
    exact ExcludeRule.reachesBelow_of_compile? compiled ⟨text, rfl⟩
  · intro user others relative same
    apply Bool.eq_iff_iff.2
    constructor
    · exact isExcluded_withUserRules_mono fun pattern member read => (same pattern read).1 member
    · exact isExcluded_withUserRules_mono fun pattern member read => (same pattern read).2 member

/-- A rule of both forms excludes what is below a directory `gen` at any depth, and a rule that cannot be
read beside it changes nothing. -/
theorem rules_reach_and_add_nested :
    (∃ rule, ExcludeRule.compile? "**/gen/**".toList = some rule ∧
      rule.accepts (pathBytes "gen") = true ∧ rule.accepts (pathBytes "lib/gen/a.rs") = true) ∧
    (withUserRules ["[", "**/gen/**"]).isExcluded "lib/gen/a.rs" =
      (withUserRules ["**/gen/**"]).isExcluded "lib/gen/a.rs" := by
  obtain ⟨anyDepth, subtree, _, _, sameRules⟩ := rules_reach_and_add
  obtain ⟨rule, compiled, accepted⟩ : ∃ rule, ExcludeRule.compile? "**/gen/**".toList = some rule ∧
      rule.accepts (pathBytes "gen") = true := ⟨_, rfl, by decide +kernel⟩
  refine ⟨⟨rule, compiled, accepted, ?_⟩, sameRules _ _ _ fun pattern read => ?_⟩
  · have nested := anyDepth "gen/**".toList rule compiled (pathBytes "lib") _ accepted
    have below := subtree "**/gen".toList rule compiled _ (pathBytes "a.rs") nested
    rwa [show pathBytes "lib/gen/a.rs" =
      pathBytes "lib" ++ slash :: pathBytes "gen" ++ slash :: pathBytes "a.rs" by decide +kernel]
  · have unread : rule? "[" = none := by decide +kernel
    rw [List.mem_cons]
    refine ⟨fun member => member.resolve_left ?_, .inr⟩
    rintro rfl
    exact read unread

end Exclude

end SourceBaseline
