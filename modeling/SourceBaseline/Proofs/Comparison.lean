import Mathlib.Data.List.Find
import Mathlib.Data.List.Nodup
import Mathlib.Order.Compare
import Mathlib.Data.String.Basic
import SourceBaseline.Comparison

/-!
# What a comparison of symbols reports

`SemanticChange.Altered` says which change leads from the symbol that stood under a name and file to
the one that stands there now. A comparison lists exactly these changes, once each, in the strict
order `SemanticChange.Before`.
-/

set_option autoImplicit false

namespace SourceBaseline

namespace Symbol

variable {symbol : Symbol}

def identity (symbol : Symbol) : String × String := (symbol.name, symbol.file)

/-- The first symbol of a snapshot with that name and file, file by file and list by list. -/
def first? (snapshot : SymbolMap) (wanted : String × String) : Option Symbol :=
  snapshot.values.flatten.find? (·.identity = wanted)

theorem sameIdentity_eq (left right : Symbol) :
    sameIdentity left right = decide (right.identity = left.identity) := by
  simp [sameIdentity, identity, eq_comm]

/-- Leaving out the later symbols of each name and file changes no look-up. -/
theorem find?_firsts (symbols : List Symbol) (wanted : String × String) :
    (firsts symbols).find? (·.identity = wanted) = symbols.find? (·.identity = wanted) := by
  induction symbols with
  | nil => rfl
  | cons head rest ih =>
      rw [firsts, List.find?_cons, List.find?_cons]
      split
      next => rfl
      next different =>
        rw [← ih, List.find?_filter]
        apply List.find?_congr
        intro other _
        rw [sameIdentity_eq]
        by_cases same : other.identity = wanted
        · have apart : wanted ≠ head.identity := by simpa [eq_comm] using different
          simp [same, apart]
        · simp [same]

theorem pairwise_firsts (symbols : List Symbol) :
    (firsts symbols).Pairwise fun left right => left.identity ≠ right.identity := by
  induction symbols with
  | nil => exact .nil
  | cons head rest ih =>
      refine List.pairwise_cons.2 ⟨?_, ih.filter _⟩
      intro other member
      have different := (List.mem_filter.1 member).2
      rw [sameIdentity_eq] at different
      exact Ne.symm (by simpa using different)

theorem find?_index (snapshot : SymbolMap) (wanted : String × String) :
    (index snapshot).find? (·.identity = wanted) = first? snapshot wanted :=
  find?_firsts snapshot.values.flatten wanted

/-- What counts of a snapshot are the symbols that come first under their name and file. -/
theorem mem_index_iff {snapshot : SymbolMap} :
    symbol ∈ index snapshot ↔ first? snapshot symbol.identity = some symbol := by
  rw [← find?_index]
  constructor
  · intro member
    have unique := pairwise_firsts snapshot.values.flatten
    obtain ⟨before, after, split⟩ := List.append_of_mem member
    rw [index] at split ⊢
    rw [split] at unique ⊢
    obtain ⟨_, _, apart⟩ := List.pairwise_append.1 unique
    rw [List.find?_append, List.find?_eq_none.2, Option.none_or, List.find?_cons_of_pos (by simp)]
    intro other earlier
    simpa using apart other earlier symbol (.head _)
  · exact List.mem_of_find?_eq_some

theorem identity_of_first? {snapshot : SymbolMap} {wanted : String × String}
    (found : first? snapshot wanted = some symbol) : symbol.identity = wanted := by
  simpa using List.find?_some found

end Symbol

namespace SemanticChange

def identity (change : SemanticChange) : String × String := (change.name, change.file)

/-- The change from what stood under a name and file to what stands there now. -/
inductive Altered (policy : VisibilityPolicy) : Option Symbol → Option Symbol → SemanticChange → Prop
  | added {current} :
      Altered policy none (some current) {
        kind := .added
        file := current.file
        line := some current.line
        name := current.name
        newSignature := current.signature
        oldSignature := none
        severity := .nonBreaking
        symbolKind := current.kind }
  | removed {previous} :
      Altered policy (some previous) none {
        kind := .removed
        file := previous.file
        line := none
        name := previous.name
        newSignature := none
        oldSignature := previous.signature
        severity := .breaking
        symbolKind := previous.kind }
  | signatureChanged {previous current} :
      previous.signature ≠ current.signature →
      Altered policy (some previous) (some current) {
        kind := .signatureChanged
        file := current.file
        line := some current.line
        name := current.name
        newSignature := current.signature
        oldSignature := previous.signature
        severity :=
          if (policy.conventionFor current.file).isPublic current.name then .breaking else .nonBreaking
        symbolKind := current.kind }
  | modified {previous current} :
      previous.signature = current.signature →
      previous.line ≠ current.line ∨ previous.enclosing ≠ current.enclosing ∨
        previous.doc ≠ current.doc →
      Altered policy (some previous) (some current) {
        kind := .modified
        file := current.file
        line := some current.line
        name := current.name
        newSignature := current.signature
        oldSignature := previous.signature
        severity := .nonBreaking
        symbolKind := current.kind }

/-- Breaking changes come first; then file, line, name and kind decide, in this order. -/
def Before (left right : SemanticChange) : Prop :=
  left.severity.rank < right.severity.rank ∨ left.severity = right.severity ∧
    (left.file < right.file ∨ left.file = right.file ∧
      (left.listedLine < right.listedLine ∨ left.listedLine = right.listedLine ∧
        (left.name < right.name ∨ left.name = right.name ∧ left.kind.rank < right.kind.rank)))

variable {policy : VisibilityPolicy} {previous current : Option Symbol} {change other : SemanticChange}

theorem Altered.unique (altered : Altered policy previous current change)
    (alteredToo : Altered policy previous current other) : change = other := by
  cases altered with
  | added => cases alteredToo; rfl
  | removed => cases alteredToo; rfl
  | signatureChanged different =>
      cases alteredToo with
      | signatureChanged => rfl
      | modified same => exact absurd same different
  | modified same =>
      cases alteredToo with
      | signatureChanged different => exact absurd same different
      | modified => rfl

theorem not_altered_self {symbol : Symbol} :
    ¬ Altered policy (some symbol) (some symbol) change := by
  intro altered
  cases altered with
  | signatureChanged different => exact different rfl
  | modified _ different => simp at different

theorem symbolChange?_eq_some_iff {old : SymbolMap} {symbol : Symbol} :
    symbolChange? policy (Symbol.index old) symbol = some change ↔
      Altered policy (Symbol.first? old symbol.identity) (some symbol) change := by
  have looked : (Symbol.index old).find? symbol.sameIdentity = Symbol.first? old symbol.identity := by
    rw [← Symbol.find?_index]
    congr 1
    funext other
    exact Symbol.sameIdentity_eq symbol other
  rw [symbolChange?, looked]
  cases Symbol.first? old symbol.identity with
  | none =>
      constructor
      · rintro ⟨rfl⟩
        exact .added
      · rintro ⟨⟩
        rfl
  | some previous =>
      dsimp only
      split
      next different =>
        constructor
        · rintro ⟨rfl⟩
          exact .signatureChanged different
        · intro altered
          rw [← Altered.unique (.signatureChanged different) altered]
          rfl
      next same =>
        have same : previous.signature = symbol.signature := by simpa using same
        split
        next moved =>
          constructor
          · rintro ⟨rfl⟩
            rw [changeOf]
            exact .modified same moved
          · intro altered
            rw [← Altered.unique (.modified same moved) altered]
            rfl
        next still =>
          refine iff_of_false nofun ?_
          intro altered
          cases altered with
          | signatureChanged different => exact different same
          | modified _ moved => exact still moved

theorem Altered.identity (altered : Altered policy previous current change) :
    (∀ symbol ∈ previous, current = none → symbol.identity = change.identity) ∧
      ∀ symbol ∈ current, symbol.identity = change.identity := by
  cases altered <;> simp [SemanticChange.identity, Symbol.identity]

/-! ## The order of a report -/

theorem order_eq_compareLex : order =
    compareLex (compareOn (·.severity.rank)) (compareLex (compareOn (·.file))
      (compareLex (compareOn (·.listedLine))
        (compareLex (compareOn (·.name)) (compareOn (·.kind.rank))))) :=
  rfl

instance : Std.TransCmp order := by
  rw [order_eq_compareLex]
  infer_instance

theorem before_of_order (less : order change other = .lt) : Before change other := by
  have severities : change.severity.rank = other.severity.rank → change.severity = other.severity := by
    cases change.severity <;> cases other.severity <;> simp [Severity.rank]
  simp only [order, Ordering.then_eq_lt, compare_lt_iff_lt, compare_eq_iff_eq] at less
  exact less.imp_right fun later => ⟨severities later.1, later.2⟩

theorem identity_of_order (same : order change other = .eq) : change.identity = other.identity := by
  simp only [order, Ordering.then_eq_eq, compare_eq_iff_eq] at same
  obtain ⟨_, file, _, name, _⟩ := same
  exact Prod.ext name file

end SemanticChange

section Report

open SemanticChange

variable {old new : SymbolMap} {policy : VisibilityPolicy} {change : SemanticChange}

theorem any_index_iff {snapshot : SymbolMap} {previous : Symbol} :
    (Symbol.index snapshot).any previous.sameIdentity = false ↔
      Symbol.first? snapshot previous.identity = none := by
  rw [← Symbol.find?_index, List.find?_eq_none, List.any_eq_false]
  simp [Symbol.sameIdentity_eq]

theorem mem_compareSymbols_iff :
    change ∈ compareSymbols old new policy ↔
      Altered policy (Symbol.first? old change.identity) (Symbol.first? new change.identity)
        change := by
  rw [compareSymbols, SemanticChange.sort, (List.mergeSort_perm _ _).mem_iff, List.mem_append,
    List.mem_filterMap, List.mem_map]
  constructor
  -- A change comes from a symbol that stands now, or from one that stood before and is gone.
  · rintro (⟨symbol, member, changed⟩ | ⟨previous, member, rfl⟩)
    · rw [symbolChange?_eq_some_iff] at changed
      rw [Symbol.mem_index_iff] at member
      have same : symbol.identity = change.identity := changed.identity.2 symbol rfl
      rw [← same, member]
      exact changed
    · obtain ⟨member, gone⟩ := List.mem_filter.1 member
      rw [Symbol.mem_index_iff] at member
      have gone := any_index_iff.1 (by simpa using gone)
      change Altered policy (Symbol.first? old previous.identity)
        (Symbol.first? new previous.identity) (removalOf previous)
      rw [member, gone]
      exact .removed
  · intro altered
    cases now : Symbol.first? new change.identity with
    | some symbol =>
        rw [now] at altered
        have same := Symbol.identity_of_first? now
        refine .inl ⟨symbol, Symbol.mem_index_iff.2 (by rw [same, now]), ?_⟩
        rw [symbolChange?_eq_some_iff, same]
        exact altered
    | none =>
        cases before : Symbol.first? old change.identity with
        | none =>
            rw [now, before] at altered
            cases altered
        | some previous =>
            rw [now, before] at altered
            have same := Symbol.identity_of_first? before
            refine .inr ⟨previous, List.mem_filter.2 ⟨?_, ?_⟩, Altered.unique .removed altered⟩
            · rw [Symbol.mem_index_iff, same, before]
            · simpa using any_index_iff.2 (by rw [same, now])

theorem identity_of_altered {wanted : String × String}
    (altered : Altered policy (Symbol.first? old wanted) (Symbol.first? new wanted) change) :
    change.identity = wanted := by
  obtain ⟨removed, present⟩ := altered.identity
  cases now : Symbol.first? new wanted with
  | some symbol => exact (present symbol now).symm.trans (Symbol.identity_of_first? now)
  | none =>
      cases before : Symbol.first? old wanted with
      | some previous =>
          exact (removed previous before now).symm.trans (Symbol.identity_of_first? before)
      | none =>
          rw [now, before] at altered
          cases altered

theorem pairwise_identity_compareSymbols :
    (compareSymbols old new policy).Pairwise fun left right => left.identity ≠ right.identity := by
  rw [compareSymbols, SemanticChange.sort,
    (List.mergeSort_perm _ _).pairwise_iff fun different => Ne.symm different]
  have identity_of_change : ∀ symbol change,
      symbolChange? policy (Symbol.index old) symbol = some change →
        symbol.identity = change.identity := by
    intro symbol change changed
    exact (symbolChange?_eq_some_iff.1 changed).identity.2 symbol rfl
  refine List.pairwise_append.2 ⟨?_, ?_, ?_⟩
  · rw [List.pairwise_filterMap]
    refine (Symbol.pairwise_firsts _).imp ?_
    intro left right different leftChange leftChanged rightChange rightChanged
    rw [← identity_of_change left leftChange leftChanged,
      ← identity_of_change right rightChange rightChanged]
    exact different
  · rw [List.pairwise_map]
    exact (Symbol.pairwise_firsts _).filter _
  · intro left changed right removed same
    obtain ⟨symbol, member, changed⟩ := List.mem_filterMap.1 changed
    obtain ⟨previous, kept, rfl⟩ := List.mem_map.1 removed
    have gone := any_index_iff.1 (by simpa using (List.mem_filter.1 kept).2)
    rw [Symbol.mem_index_iff, identity_of_change symbol left changed, same] at member
    exact absurd (member.symm.trans gone) nofun

theorem pairwise_before_compareSymbols : (compareSymbols old new policy).Pairwise Before := by
  have sorted : (compareSymbols old new policy).Pairwise fun left right =>
      (order left right).isLE = true := by
    apply List.pairwise_mergeSort
    · intro left middle right first second
      exact Std.TransCmp.isLE_trans first second
    · intro left right
      have swapped : order right left = (order left right).swap := Std.OrientedCmp.eq_swap
      rw [swapped]
      cases order left right <;> rfl
  refine (sorted.and pairwise_identity_compareSymbols).imp ?_
  rintro left right ⟨ordered, different⟩
  cases compared : order left right with
  | lt => exact before_of_order compared
  | eq => exact absurd (identity_of_order compared) different
  | gt =>
      rw [compared] at ordered
      cases ordered

theorem compareSymbols_self (symbols : SymbolMap) (policy : VisibilityPolicy) :
    compareSymbols symbols symbols policy = [] := by
  apply List.eq_nil_iff_forall_not_mem.2
  intro change member
  have altered := mem_compareSymbols_iff.1 member
  cases found : Symbol.first? symbols change.identity with
  | none =>
      rw [found] at altered
      cases altered
  | some symbol =>
      rw [found] at altered
      exact not_altered_self altered

theorem exists_of_removed (member : change ∈ compareSymbols old new policy)
    (removed : change.kind = .removed) :
    ∃ previous, Symbol.first? old previous.identity = some previous ∧
      Symbol.first? new previous.identity = none ∧ change = removalOf previous := by
  have altered := mem_compareSymbols_iff.1 member
  revert altered
  generalize before : Symbol.first? old change.identity = stood
  generalize now : Symbol.first? new change.identity = stands
  intro altered
  cases altered with
  | added => cases removed
  | signatureChanged _ => cases removed
  | modified _ _ => cases removed
  | removed => exact ⟨_, before, now, rfl⟩

/-- Every name and file whose first symbols differ has exactly one change, as `Altered` says; there
is no other change, and the changes stand in strict order. -/
theorem compareSymbols_exact (old new : SymbolMap) (policy : VisibilityPolicy) :
    (∀ name file change,
      Altered policy (Symbol.first? old (name, file)) (Symbol.first? new (name, file)) change →
      (compareSymbols old new policy).filter (fun listed => listed.identity = (name, file)) =
        [change]) ∧
    (∀ change ∈ compareSymbols old new policy,
      Altered policy (Symbol.first? old change.identity) (Symbol.first? new change.identity)
        change) ∧
    (compareSymbols old new policy).Pairwise Before ∧
    compareSymbols old old policy = [] := by
  refine ⟨?_, fun change => mem_compareSymbols_iff.1, pairwise_before_compareSymbols, ?_⟩
  · intro name file change altered
    have unique : (compareSymbols old new policy).Nodup :=
      pairwise_identity_compareSymbols.imp fun different same => different (congrArg _ same)
    apply List.perm_singleton.1
    apply (List.perm_ext_iff_of_nodup (unique.filter _) (List.nodup_singleton change)).2
    intro listed
    rw [List.mem_filter, mem_compareSymbols_iff, List.mem_singleton, decide_eq_true_iff]
    constructor
    · rintro ⟨listedAltered, same⟩
      rw [same] at listedAltered
      exact listedAltered.unique altered
    · rintro rfl
      have same := identity_of_altered altered
      exact ⟨by rwa [same], same⟩
  · exact compareSymbols_self old policy

end Report

end SourceBaseline
