import SourceBaseline.Proofs.Path

/-!
# Normal paths

Normalizing a path follows its steps from the top or from nowhere and writes the names that are left.
`exists_names_normalize` says which names these are, so a normal path holds neither `.` nor `..` and is
normalized to itself.
-/

set_option autoImplicit false

namespace SourceBaseline.Path

variable {path : Path} {names : List String} {parts : List Component}

/-! ## Following parts -/

theorem follow_steps (names : List String) (parts : List Component) :
    follow names (Component.steps parts) = follow names parts := by
  induction parts generalizing names with
  | nil => rfl
  | cons part rest ih =>
      cases part with
      | root => exact ih names
      | here => exact ih names
      | up =>
          rw [follow_up, ← ih]
          exact follow_up names (Component.steps rest)
      | name name =>
          rw [follow_name, ← ih]
          exact follow_name names name (Component.steps rest)

theorem follow_names (names more : List String) : follow names (more.map .name) = names ++ more := by
  induction more generalizing names with
  | nil => simp [follow_nil]
  | cons name rest ih => rw [List.map_cons, follow_name, ih, List.append_assoc, List.singleton_append]

theorem isName_of_mem_follow (named : ∀ name ∈ names, IsName name)
    (ahead : ∀ name, .name name ∈ parts → IsName name) : ∀ name ∈ follow names parts, IsName name := by
  induction parts generalizing names with
  | nil => rwa [follow_nil]
  | cons part rest ih =>
      have later : ∀ name, .name name ∈ rest → IsName name := fun name member => ahead name (.tail _ member)
      cases part with
      | root => exact ih named later
      | here => exact ih named later
      | up =>
          rw [follow_up]
          exact ih (fun name member => named name (List.dropLast_subset _ member)) later
      | name name =>
          rw [follow_name]
          exact ih (Location.named_concat named (ahead name (.head _))) later

/-! ## Names that are written out -/

theorem isAbsolute_intercalate (named : ∀ name ∈ names, IsName name) :
    (Path.mk ("/".intercalate names)).isAbsolute = false := by
  by_cases inner : names = []
  · subst inner
    rfl
  · -- The first piece of an absolute path is empty, and names are not.
    refine Bool.eq_false_iff.2 fun absolute => ?_
    rw [isAbsolute, decide_eq_true_eq] at absolute
    obtain ⟨rest, chars⟩ := List.head?_eq_some_iff.1 absolute
    have first : "" ∈ names := by
      rw [← pieces_intercalate (Location.undivided named) inner, pieces, chars, Text.pieces, if_pos rfl]
      simp
    exact (named "" first).nonempty rfl

/-! ## Normal forms -/

/-- The names, from the top or from nowhere. -/
def spell (absolute : Bool) (names : List String) : Path :=
  if absolute then Location.path names else ⟨"/".intercalate names⟩

theorem isAbsolute_spell (absolute : Bool) (named : ∀ name ∈ names, IsName name) :
    (spell absolute names).isAbsolute = absolute := by
  cases absolute with
  | true => exact Location.isAbsolute_path names
  | false => exact isAbsolute_intercalate named

theorem follow_components_spell (absolute : Bool) (named : ∀ name ∈ names, IsName name) :
    follow [] (spell absolute names).components = names := by
  cases absolute with
  | true =>
      have parts : (spell true names).components = .root :: names.map .name := Location.components_path named
      rw [parts, follow_root, follow_names, List.nil_append]
  | false =>
      have parts : (spell false names).pieces.filterMap componentOf? = names.map .name :=
        (filterMap_pieces_intercalate (Location.undivided named)).trans (filterMap_componentOf? named)
      rw [← follow_steps, steps_components, parts, follow_names, List.nil_append]

theorem mem_pieces_spell {absolute : Bool} {piece : String} (named : ∀ name ∈ names, IsName name)
    (member : piece ∈ (spell absolute names).pieces) : piece = "" ∨ piece ∈ names := by
  by_cases inner : names = []
  · subst inner
    cases absolute with
    | true =>
        have void : piece ∈ ["", ""] := member
        exact .inl (by simpa using void)
    | false => exact .inl (List.mem_singleton.1 member)
  · cases absolute with
    | true =>
        have split : (spell true names).pieces = "" :: names := Location.pieces_path named inner
        rw [split] at member
        exact List.mem_cons.1 member
    | false =>
        have split : (spell false names).pieces = names := pieces_intercalate (Location.undivided named) inner
        rw [split] at member
        exact .inr member

theorem normalize_eq_spell (path : Path) :
    path.normalize = spell path.isAbsolute (follow [] path.components) := by
  rw [normalize, spell]
  split <;> rfl

theorem isName_of_mem_follow_components (path : Path) :
    ∀ name ∈ follow [] path.components, IsName name :=
  isName_of_mem_follow nofun fun _ member => isName_of_mem_components member

theorem normalize_normalize (path : Path) : path.normalize.normalize = path.normalize := by
  have named := isName_of_mem_follow_components path
  rw [normalize_eq_spell path, normalize_eq_spell, isAbsolute_spell _ named, follow_components_spell _ named]

theorem isAbsolute_normalize (path : Path) : path.normalize.isAbsolute = path.isAbsolute := by
  rw [normalize_eq_spell, isAbsolute_spell _ (isName_of_mem_follow_components path)]

theorem not_dots_of_mem_pieces_normalize {piece : String} (member : piece ∈ path.normalize.pieces) :
    piece ≠ "." ∧ piece ≠ ".." := by
  have named := isName_of_mem_follow_components path
  rw [normalize_eq_spell] at member
  rcases mem_pieces_spell named member with rfl | inside
  · decide
  · exact ⟨(named piece inside).notHere, (named piece inside).notUp⟩

end SourceBaseline.Path
