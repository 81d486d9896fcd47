import SourceBaseline.Path

/-!
# Readings of a path

A path is read in two ways: as parts, without the `.` and separators that lead nowhere, and as the
names by which a disk follows it. Both readings take the same steps, and a path that is joined to a
location takes the steps to that location first.
-/

set_option autoImplicit false

namespace SourceBaseline

namespace Text

variable {separator : Char}

theorem pieces_ne_nil (text : List Char) : pieces separator text ≠ [] := by
  cases text with
  | nil => simp [pieces]
  | cons char rest =>
      rw [pieces]
      split
      next => simp
      next => split <;> simp

theorem pieces_append (first second : List Char) :
    pieces separator (first ++ separator :: second) =
      pieces separator first ++ pieces separator second := by
  induction first with
  | nil => simp [pieces]
  | cons char rest ih =>
      rw [List.cons_append, pieces, pieces, ih]
      split
      next => rfl
      next =>
        cases split : pieces separator rest with
        | nil => exact absurd split (pieces_ne_nil rest)
        | cons piece others => rfl

theorem pieces_of_not_mem {text : List Char} (undivided : separator ∉ text) :
    pieces separator text = [text] := by
  induction text with
  | nil => rfl
  | cons char rest ih =>
      have different : char ≠ separator := fun same => undivided (by simp [same])
      have later : separator ∉ rest := fun member => undivided (.tail _ member)
      rw [pieces, if_neg different, ih later]

end Text

/-- Whether the part leads anywhere. -/
def Component.isStep : Component → Bool
  | .up => true
  | .name _ => true
  | _ => false

/-- The parts that lead somewhere. -/
def Component.steps (parts : List Component) : List Component :=
  parts.filter Component.isStep

theorem Component.steps_append (first second : List Component) :
    steps (first ++ second) = steps first ++ steps second :=
  List.filter_append _ _

theorem Location.named_concat {directory : Location} {name : String}
    (named : ∀ other ∈ directory, IsName other) (isName : IsName name) :
    ∀ other ∈ directory ++ [name], IsName other := by
  intro other member
  rcases List.mem_append.1 member with before | last
  · exact named other before
  · exact List.mem_singleton.1 last ▸ isName

theorem Location.named_above {directory : Location} {name : String}
    (named : ∀ other ∈ directory ++ [name], IsName other) : ∀ other ∈ directory, IsName other :=
  fun other member => named other (List.mem_append_left [name] member)

theorem Location.named_beside {directory : Location} {name newName : String}
    (named : ∀ other ∈ directory ++ [name], IsName other) (isName : IsName newName) :
    ∀ other ∈ directory ++ [newName], IsName other :=
  named_concat (named_above named) isName

theorem Location.not_endsInSeparator {directory : Location} {name : String} (isName : IsName name) :
    (Location.path (directory ++ [name])).endsInSeparator = false := by
  have chars : name.toList ≠ [] := by
    intro empty
    exact isName.nonempty (String.toList_injective (by simpa using empty))
  have last : (Location.path (directory ++ [name])).text.toList.getLast? = name.toList.getLast? := by
    by_cases top : directory = []
    · subst top
      simp [Location.path, List.getLast?_cons, List.getLast?_eq_some_getLast chars]
    · simp [Location.path, String.intercalate_append_of_ne_nil top, List.getLast?_cons,
        List.getLast?_append, List.getLast?_eq_some_getLast chars]
  rw [Path.endsInSeparator, last, List.getLast?_eq_some_getLast chars, decide_eq_false_iff_not]
  intro same
  exact isName.undivided (Option.some.inj same ▸ List.getLast_mem chars)

theorem Text.pieces_intercalate {names : List String} (undivided : ∀ name ∈ names, '/' ∉ name.toList)
    (inner : names ≠ []) :
    pieces '/' ("/".intercalate names).toList = names.map String.toList := by
  induction names with
  | nil => exact absurd rfl inner
  | cons name rest ih =>
      obtain ⟨first, later⟩ := List.forall_mem_cons.1 undivided
      by_cases last : rest = []
      · simp [last, pieces_of_not_mem first]
      · have chars : (name ++ "/" ++ "/".intercalate rest).toList =
            name.toList ++ '/' :: ("/".intercalate rest).toList := by
          simp [String.toList_append]
        rw [String.intercalate_cons_of_ne_nil last, chars, pieces_append, pieces_of_not_mem first,
          ih later last]
        rfl

theorem Location.undivided {location : Location} (named : ∀ name ∈ location, IsName name) :
    ∀ name ∈ location, '/' ∉ name.toList :=
  fun name member => (named name member).undivided

theorem Location.pieces_intercalate {location : Location} (named : ∀ name ∈ location, IsName name)
    (inner : location ≠ []) :
    Text.pieces '/' ("/".intercalate location).toList = location.map String.toList :=
  Text.pieces_intercalate (undivided named) inner

theorem Location.pieces_path {location : Location} (named : ∀ name ∈ location, IsName name)
    (inner : location ≠ []) : (Location.path location).pieces = "" :: location := by
  have chars : (Location.path location).text.toList = '/' :: ("/".intercalate location).toList := by
    simp [Location.path, String.toList_append]
  rw [Path.pieces, chars, Text.pieces, if_pos rfl, pieces_intercalate named inner]
  simp [Function.comp_def]

namespace Path

theorem componentOf?_of_isVoid {piece : String} (void : isVoid piece = true) :
    componentOf? piece = none := by
  simp [componentOf?, void]

theorem componentOf?_of_isName {name : String} (isName : IsName name) :
    componentOf? name = some (.name name) := by
  simp [componentOf?, isVoid, isName.nonempty, isName.notHere, isName.notUp]

theorem filterMap_componentOf? {names : List String} (named : ∀ name ∈ names, IsName name) :
    names.filterMap componentOf? = names.map .name := by
  induction names with
  | nil => rfl
  | cons name rest ih =>
      obtain ⟨first, later⟩ := List.forall_mem_cons.1 named
      rw [List.filterMap_cons_some (componentOf?_of_isName first), ih later, List.map_cons]

theorem pieces_intercalate {names : List String} (undivided : ∀ name ∈ names, '/' ∉ name.toList)
    (inner : names ≠ []) : (Path.mk ("/".intercalate names)).pieces = names := by
  rw [pieces, Text.pieces_intercalate undivided inner]
  simp [Function.comp_def]

theorem filterMap_pieces_intercalate {names : List String}
    (undivided : ∀ name ∈ names, '/' ∉ name.toList) :
    (Path.mk ("/".intercalate names)).pieces.filterMap componentOf? = names.filterMap componentOf? := by
  by_cases inner : names = []
  · subst inner
    rfl
  · rw [pieces_intercalate undivided inner]

theorem isStep_of_componentOf? {piece : String} {part : Component}
    (found : componentOf? piece = some part) : part.isStep = true := by
  rw [componentOf?] at found
  split at found
  next => cases found
  next => split at found <;> cases found <;> rfl

theorem filterMap_drop_one {path : Path} (absolute : path.isAbsolute = true) :
    (path.pieces.drop 1).filterMap componentOf? = path.pieces.filterMap componentOf? := by
  rw [isAbsolute, decide_eq_true_eq] at absolute
  obtain ⟨rest, chars⟩ := List.head?_eq_some_iff.1 absolute
  simp [pieces, chars, Text.pieces, componentOf?_of_isVoid, isVoid]

theorem filterMap_body (path : Path) :
    path.leadAndBody.2.filterMap componentOf? = path.pieces.filterMap componentOf? := by
  rw [leadAndBody]
  split
  next absolute => exact filterMap_drop_one absolute
  next =>
    split
    next rest pieces =>
      rw [pieces]
      simp [componentOf?_of_isVoid, isVoid]
    next => rfl

theorem steps_components (path : Path) :
    Component.steps path.components = path.pieces.filterMap componentOf? := by
  have lead : Component.steps
      (if path.isAbsolute then [.root] else if path.leadAndBody.1.isSome then [.here] else []) = [] := by
    split
    next => rfl
    next => split <;> rfl
  rw [components, Component.steps_append, lead, List.nil_append, filterMap_body]
  apply List.filter_eq_self.2
  intro part member
  obtain ⟨piece, _, found⟩ := List.mem_filterMap.1 member
  exact isStep_of_componentOf? found

theorem filterMap_walkNames (path : Path) :
    path.walkNames.filterMap componentOf? = path.pieces.filterMap componentOf? := by
  have ending : (if path.pieces.getLast? = some "" then ["."] else []).filterMap componentOf? = [] := by
    split <;> rfl
  rw [walkNames, List.filterMap_append, ending, List.append_nil, List.filterMap_filter]
  congr 1
  funext piece
  by_cases empty : piece = ""
  · simp [empty, componentOf?, isVoid]
  · simp [empty]

theorem filterMap_walkNames_eq_steps (path : Path) :
    path.walkNames.filterMap componentOf? = Component.steps path.components := by
  rw [filterMap_walkNames, steps_components]

/-- A relative path that is joined to a location takes its steps after those to the location. -/
theorem filterMap_pieces_join {location : Location} {path : Path}
    (named : ∀ name ∈ location, IsName name) (relative : path.isAbsolute = false) :
    ((Location.path location).join path).pieces.filterMap componentOf? =
      location.map .name ++ path.pieces.filterMap componentOf? := by
  have chars : ((Location.path location).join path).text.toList =
      if location = [] then '/' :: path.text.toList
      else '/' :: (("/".intercalate location).toList ++ '/' :: path.text.toList) := by
    rw [join, if_neg (by simp [relative])]
    rcases List.eq_nil_or_concat location with top | ⟨directory, name, split⟩
    · subst top
      simp [Location.path, endsInSeparator]
    · rw [List.concat_eq_append] at split
      subst split
      have solid : (Location.path (directory ++ [name])).text ≠ "" := by
        intro empty
        simpa [Location.path] using congrArg String.toList empty
      have separator := @Location.not_endsInSeparator directory name (named name (by simp))
      rw [if_neg (by simp [solid, separator]), if_neg (by simp)]
      simp [Location.path]
  rw [pieces, chars]
  split
  next top =>
    subst top
    simp [Text.pieces, pieces, componentOf?_of_isVoid, isVoid]
  next inner =>
    rw [Text.pieces, if_pos rfl, Text.pieces_append, Location.pieces_intercalate named inner,
      ← filterMap_componentOf? named]
    simp [pieces, componentOf?_of_isVoid, isVoid, Function.comp_def]

theorem join_of_isAbsolute {path other : Path} (absolute : other.isAbsolute = true) :
    path.join other = other :=
  if_pos absolute

theorem join_of_isName {path : Path} {name : String} (isName : IsName name) :
    path.join ⟨name⟩ = if path.text = "" ∨ path.endsInSeparator then ⟨path.text ++ name⟩
      else ⟨path.text ++ "/" ++ name⟩ := by
  rw [join, if_neg]
  intro absolute
  rw [isAbsolute, decide_eq_true_eq] at absolute
  exact isName.undivided (List.mem_of_head? absolute)

end Path

namespace Location

theorem isAbsolute_path (location : Location) : (Location.path location).isAbsolute = true := by
  simp [Location.path, Path.isAbsolute, String.toList_append]

theorem isAbsolute_join (location : Location) (path : Path) :
    ((Location.path location).join path).isAbsolute = true := by
  rw [Path.join]
  split
  next absolute => exact absolute
  next => split <;> simp [Location.path, Path.isAbsolute, String.toList_append]

theorem components_path {location : Location} (named : ∀ name ∈ location, IsName name) :
    (Location.path location).components = .root :: location.map .name := by
  have body : (Location.path location).leadAndBody = (none, (Location.path location).pieces.drop 1) := by
    rw [Path.leadAndBody, if_pos (isAbsolute_path location)]
  rw [Path.components, body]
  simp only [if_pos (isAbsolute_path location), List.singleton_append, List.cons.injEq, true_and]
  by_cases top : location = []
  · subst top
    rfl
  · rw [pieces_path named top, List.drop_one, List.tail_cons, Path.filterMap_componentOf? named]

end Location

end SourceBaseline
