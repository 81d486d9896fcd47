import SourceBaseline.Proofs.Disk.Fitting
import SourceBaseline.Proofs.Disk.Ways
import SourceBaseline.Proofs.Path
import SourceBaseline.Proofs.Target

/-!
# Names beside any path

A path may spell the way to its directory in many ways, and a name that is put in place of its last
one is spelled after the shortest of them. Both names are still found in the same directory: a walk to
a directory is not changed by a `.` on its way.
-/

set_option autoImplicit false

namespace SourceBaseline

/-! ## Parts of paths -/

namespace Path

variable {path : Path} {name : String}

theorem filterMap_dropVoid (names : List String) :
    (dropVoid names).filterMap componentOf? = names.filterMap componentOf? := by
  induction names using List.reverseRecOn with
  | nil => rfl
  | append_singleton front last ih =>
      by_cases void : isVoid last = true
      · have dropped : dropVoid (front ++ [last]) = dropVoid front := by
          simp [dropVoid, void]
        rw [dropped, ih]
        simp [componentOf?_of_isVoid void]
      · have kept : dropVoid (front ++ [last]) = front ++ [last] := by
          simp [dropVoid, void]
        rw [kept]

theorem isVoid_of_dropVoid_concat {names front : List String} {last : String}
    (kept : dropVoid names = front ++ [last]) : isVoid last = false := by
  induction names using List.reverseRecOn with
  | nil => simp [dropVoid] at kept
  | append_singleton before final ih =>
      by_cases void : isVoid final = true
      · have dropped : dropVoid (before ++ [final]) = dropVoid before := by
          simp [dropVoid, void]
        exact ih (dropped.symm.trans kept)
      · have same : dropVoid (before ++ [final]) = before ++ [final] := by
          simp [dropVoid, void]
        have ends := (List.append_inj' (same.symm.trans kept) rfl).2
        rw [← List.singleton_inj.1 ends]
        simpa using void

theorem mem_of_mem_dropVoid {names : List String} {name : String} (member : name ∈ dropVoid names) :
    name ∈ names := by
  rw [dropVoid, List.mem_reverse] at member
  exact List.mem_reverse.1 (List.dropWhile_subset _ member)

theorem getLast?_components {parts : List Component}
    (ends : path.pieces.filterMap componentOf? = parts ++ [.name name]) :
    path.components.getLast? = some (.name name) := by
  rw [components]
  dsimp only
  rw [filterMap_body, ends, ← List.append_assoc, List.getLast?_concat]

theorem fileName?_of_ends {parts : List Component}
    (ends : path.pieces.filterMap componentOf? = parts ++ [.name name]) :
    path.fileName? = some name := by
  rw [fileName?, getLast?_components ends]

theorem lead_cases (path : Path) : path.leadAndBody.1 = none ∨ path.leadAndBody.1 = some "." := by
  rw [leadAndBody]
  split
  next => exact .inl rfl
  next =>
    split
    next => exact .inr rfl
    next => exact .inl rfl

/-- A path that ends in a name has a last piece, and the parts before it are those of the pieces before. -/
theorem exists_dropVoid_concat {parts : List Component}
    (ends : path.pieces.filterMap componentOf? = parts ++ [.name name]) :
    ∃ front last, dropVoid path.leadAndBody.2 = front ++ [last] ∧
      front.filterMap componentOf? = parts := by
  have body := (filterMap_dropVoid path.leadAndBody.2).trans ((filterMap_body path).trans ends)
  have solid : dropVoid path.leadAndBody.2 ≠ [] := by
    intro none
    simp [none] at body
  obtain ⟨front, last, split⟩ := (List.eq_nil_or_concat _).resolve_left solid
  rw [List.concat_eq_append] at split
  have leads : (componentOf? last).isSome = true := by
    simp only [componentOf?, isVoid_of_dropVoid_concat split, Bool.false_eq_true, if_false]
    split <;> rfl
  obtain ⟨part, found⟩ := Option.isSome_iff_exists.1 leads
  refine ⟨front, last, split, ?_⟩
  rw [split, List.filterMap_append, List.filterMap_cons_some found, List.filterMap_nil] at body
  exact (List.append_inj' body rfl).1

theorem filterMap_parent {parts : List Component}
    (ends : path.pieces.filterMap componentOf? = parts ++ [.name name]) :
    (path.parent?.getD ⟨""⟩).pieces.filterMap componentOf? = parts := by
  obtain ⟨front, last, split, ahead⟩ := exists_dropVoid_concat ends
  have undivided : ∀ name ∈ path.leadAndBody.1.toList ++ dropVoid front, '/' ∉ name.toList := by
    intro name member
    rcases List.mem_append.1 member with lead | kept
    · rcases path.lead_cases with none | here
      · simp [none] at lead
      · rw [here, Option.toList_some, List.mem_singleton] at lead
        subst lead
        decide
    · have inside : name ∈ path.leadAndBody.2 := by
        apply mem_of_mem_dropVoid
        rw [split]
        exact List.mem_append_left _ (mem_of_mem_dropVoid kept)
      exact undivided_of_mem_pieces (mem_pieces_of_mem_body inside)
  have lead : path.leadAndBody.1.toList.filterMap componentOf? = [] := by
    rcases path.lead_cases with none | here
    · rw [none]
      rfl
    · rw [here]
      rfl
  have rest := filterMap_pieces_intercalate undivided
  rw [List.filterMap_append, lead, List.nil_append, filterMap_dropVoid, ahead] at rest
  rw [parent?]
  dsimp only
  rw [if_neg (by rw [split]; simp), Option.getD_some, split, List.dropLast_concat]
  split
  next =>
    -- The separator in front adds an empty piece, which is no part.
    rw [← rest]
    simp [pieces, Text.pieces, componentOf?_of_isVoid, isVoid]
  next => exact rest

/-- What is joined to a path ends in its own name, after what has the parts of the path. -/
theorem exists_walkNames_join (path : Path) (isName : IsName name) :
    ∃ front, (path.join ⟨name⟩).walkNames = front ++ [name] ∧
      front.filterMap componentOf? = path.pieces.filterMap componentOf? := by
  have pieces : ∃ front, (path.join ⟨name⟩).pieces = front ++ [name] ∧
      front.filterMap componentOf? = path.pieces.filterMap componentOf? := by
    rw [join_of_isName isName]
    split
    next bare =>
      rcases bare with empty | separator
      · refine ⟨[], ?_, ?_⟩
        · simp [pieces, empty, Text.pieces_of_not_mem isName.undivided]
        · simp [pieces, empty, Text.pieces, componentOf?_of_isVoid, isVoid]
      · rw [endsInSeparator, decide_eq_true_eq] at separator
        obtain ⟨chars, ends⟩ := List.getLast?_eq_some_iff.1 separator
        refine ⟨(Text.pieces '/' chars).map String.ofList, ?_, ?_⟩
        · simp [pieces, ends, Text.pieces_append, Text.pieces_of_not_mem isName.undivided]
        · simp [pieces, ends, Text.pieces_append, Text.pieces, componentOf?_of_isVoid, isVoid]
    next =>
      refine ⟨path.pieces, ?_, rfl⟩
      simp [pieces, Text.pieces_append, Text.pieces_of_not_mem isName.undivided]
  obtain ⟨front, split, parts⟩ := pieces
  refine ⟨front.filter (· ≠ ""), ?_, ?_⟩
  · rw [walkNames, split]
    simp [isName.nonempty, List.filter_append]
  · rw [← parts, List.filterMap_filter]
    congr 1
    funext piece
    by_cases empty : piece = ""
    · simp [empty, componentOf?, isVoid]
    · simp [empty]

end Path

/-! ## Walks -/

namespace Disk

variable {disk : Disk} {here : Cursor} {place : Location} {links left count : Nat}
  {first second : List String}

theorem filter_eq_of_filterMap_eq (solid : ∀ name ∈ first, name ≠ "")
    (solidToo : ∀ name ∈ second, name ≠ "")
    (same : first.filterMap Path.componentOf? = second.filterMap Path.componentOf?) :
    first.filter (· ≠ ".") = second.filter (· ≠ ".") := by
  have texts : ∀ names : List String, (∀ name ∈ names, name ≠ "") →
      (names.filterMap Path.componentOf?).map Component.text = names.filter (· ≠ ".") := by
    intro names solid
    induction names with
    | nil => rfl
    | cons name rest ih =>
        have later := ih fun other member => solid other (.tail _ member)
        have nonempty := solid name (.head _)
        by_cases isHere : name = "."
        · subst isHere
          exact later
        · by_cases isUp : name = ".."
          · subst isUp
            simpa [List.filterMap_cons, Path.componentOf?, Path.isVoid, Component.text] using later
          · simpa [List.filterMap_cons, Path.componentOf?, Path.isVoid, Component.text, nonempty, isHere,
              isUp] using later
  rw [← texts first solid, ← texts second solidToo, same]

theorem proceed_dots {onLink : Cursor → List String → Except Fault (Location × Nat)}
    {dots : List String} (still : ∀ name ∈ dots, name = ".") (more : List String) :
    disk.proceed true (·, count) onLink here (dots ++ more) =
      disk.proceed true (·, count) onLink here more := by
  induction dots with
  | nil => rfl
  | cons dot rest ih =>
      rw [List.cons_append, proceed, if_pos (still dot (.head _))]
      exact ih fun name member => still name (.tail _ member)

/-- A name that is left when each `.` is taken out stands after nothing but `.` in the other list. -/
theorem exists_dots {name : String} {rest second : List String} (apart : name ≠ ".")
    (same : (name :: rest).filter (· ≠ ".") = second.filter (· ≠ ".")) :
    ∃ dots more, second = dots ++ name :: more ∧ (∀ dot ∈ dots, dot = ".") ∧
      rest.filter (· ≠ ".") = more.filter (· ≠ ".") := by
  rw [List.filter_cons_of_pos (by simpa using apart)] at same
  obtain ⟨dots, more, rfl, still, _, sameRest⟩ := List.filter_eq_cons_iff.1 same.symm
  exact ⟨dots, more, rfl, fun dot member => by simpa using still dot member, sameRest.symm⟩

/-- Walks to a directory along names that differ in `.` only go the same way. -/
theorem proceed_of_filter_eq {onLink : Cursor → List String → Except Fault (Location × Nat)}
    (hop : ∀ {start : Cursor} {first second : List String}, Cursor.Reached disk.tree start →
      first.filter (· ≠ ".") = second.filter (· ≠ ".") →
      onLink start first = .ok (place, left) → onLink start second = .ok (place, left))
    (reached : Cursor.Reached disk.tree here) (stands : disk.find? place = some .directory)
    (same : first.filter (· ≠ ".") = second.filter (· ≠ "."))
    (found : disk.proceed true (·, count) onLink here first = .ok (place, left)) :
    disk.proceed true (·, count) onLink here second = .ok (place, left) := by
  have proceeds := proceeds_of_proceed found
  clear found
  induction proceeds generalizing second with
  | @ends here last =>
      have still : ∀ name ∈ second, name = "." := by
        intro name member
        simpa using List.filter_eq_nil_iff.1 same.symm name member
      have skipped := @proceed_dots disk here count onLink second still []
      rw [List.append_nil] at skipped
      exact skipped.trans (congrArg Except.ok last)
  | stay _ ih => exact ih reached (by simpa using same)
  | up _ ih =>
      obtain ⟨dots, more, rfl, still, sameRest⟩ := exists_dots (by decide) same
      rw [proceed_dots still, proceed_up]
      exact ih reached.up sameRest
  | enter looked inside _ ih =>
      obtain ⟨dots, more, rfl, still, sameRest⟩ := exists_dots looked.notHere same
      rw [proceed_dots still, proceed_of_directory looked inside]
      exact ih (reached.down inside) sameRest
  | file _ inside last =>
      -- A file is no directory, so the walk does not end here.
      cases last
      cases stands.symm.trans (find?_of_child? reached inside)
  | last _ _ unfollowed => cases unfollowed
  | @follow here name rest target looked inside _ answered =>
      obtain ⟨dots, more, rfl, still, sameRest⟩ := exists_dots looked.notHere same
      rw [proceed_dots still, proceed_of_link looked inside (by simp)]
      refine hop (reached_start reached target) ?_ answered
      rw [List.filter_append, List.filter_append, sameRest]

theorem walkTo_of_filter_eq (reached : Cursor.Reached disk.tree here)
    (stands : disk.find? place = some .directory)
    (same : first.filter (· ≠ ".") = second.filter (· ≠ "."))
    (walked : disk.walkTo true links here first = .ok (place, left)) :
    disk.walkTo true links here second = .ok (place, left) := by
  induction links generalizing here first second with
  | zero => exact proceed_of_filter_eq (fun _ _ refused => by cases refused) reached stands same walked
  | succ links ih =>
      exact proceed_of_filter_eq (fun reached same found => ih reached same found) reached stands same
        walked

/-- A name is found in the directory of another one if both are spelled after the same parts. -/
theorem slot_of_parts_eq {special other : Fault} {route newRoute : Route} {front newFront : List String}
    {parent : Location} {name newName : String} (found : disk.slot special route = .ok (parent, name))
    (spelled : route.names = front ++ [name]) (newSpelled : newRoute.names = newFront ++ [newName])
    (same : front.filter (· ≠ ".") = newFront.filter (· ≠ "."))
    (clean : checkPath newRoute.path = .ok ()) (plain : newName ≠ "." ∧ newName ≠ "..") :
    disk.slot other newRoute = .ok (parent, newName) := by
  obtain ⟨_, ahead, left, split, walked, ready, _⟩ := slot_eq_ok_iff.1 found
  rw [spelled] at split
  cases (List.append_inj' split rfl).1
  exact slot_eq_ok_iff.2 ⟨clean, newFront, left, newSpelled, walkTo_of_filter_eq .top ready same walked,
    ready, plain⟩

end Disk

/-! ## Locks and where they are set aside -/

namespace Path

variable {path : Path} {name newName : String}

theorem not_endsInSeparator_append (front : String) {back : String} (solid : back ≠ "")
    (undivided : '/' ∉ back.toList) : endsInSeparator ⟨front ++ back⟩ = false := by
  have inner : back.toList ≠ [] := by simpa using solid
  rw [endsInSeparator, decide_eq_false_iff_not, String.toList_append, List.getLast?_append,
    List.getLast?_eq_some_getLast inner, Option.some_or]
  intro last
  exact undivided (Option.some.inj last ▸ List.getLast_mem inner)

/-- A name that is put in place of the last one of a path is spelled after the same parts. -/
theorem walkNames_beside (path : Path) (isName : IsName name) (newIsName : IsName newName) :
    ∃ front newFront, (path.join ⟨name⟩).fileName? = some name ∧
      (path.join ⟨name⟩).walkNames = front ++ [name] ∧
      ((path.join ⟨name⟩).withFileName newName).walkNames = newFront ++ [newName] ∧
      front.filter (· ≠ ".") = newFront.filter (· ≠ ".") := by
  obtain ⟨front, spelled, parts⟩ := exists_walkNames_join path isName
  have ends : (path.join ⟨name⟩).pieces.filterMap componentOf? =
      path.pieces.filterMap componentOf? ++ [.name name] := by
    rw [← filterMap_walkNames, spelled, List.filterMap_append, parts,
      List.filterMap_cons_some (componentOf?_of_isName isName), List.filterMap_nil]
  have named : (path.join ⟨name⟩).fileName? = some name := fileName?_of_ends ends
  have joined : (path.join ⟨name⟩).withFileName newName =
      ((path.join ⟨name⟩).parent?.getD ⟨""⟩).join ⟨newName⟩ := by
    rw [withFileName, named]
    rfl
  obtain ⟨newFront, newSpelled, newParts⟩ :=
    exists_walkNames_join ((path.join ⟨name⟩).parent?.getD ⟨""⟩) newIsName
  refine ⟨front, newFront, named, spelled, joined ▸ newSpelled, ?_⟩
  apply Disk.filter_eq_of_filterMap_eq
  · intro other member
    exact (undivided_of_mem_walkNames (spelled ▸ List.mem_append_left _ member)).1
  · intro other member
    exact (undivided_of_mem_walkNames (newSpelled ▸ List.mem_append_left _ member)).1
  · rw [parts, newParts, filterMap_parent ends]

theorem exists_withFileName (path : Path) (name : String) :
    ∃ above : Path, path.withFileName name = above.join ⟨name⟩ := by
  rw [withFileName]
  split
  next => exact ⟨_, rfl⟩
  next => exact ⟨_, rfl⟩

theorem exists_text_join (path : Path) (isName : IsName name) :
    ∃ front, (path.join ⟨name⟩).text = front ++ name := by
  rw [join_of_isName isName]
  split
  next => exact ⟨_, rfl⟩
  next => exact ⟨_, rfl⟩

end Path

namespace Lock

variable {disk : Disk} {target : Target} {special : Fault} {parent : Location} {name : String}

theorem isName_lock_written (path : Path) : IsName ((Target.written path).name ++ ".lock") := by
  rw [Target.name]
  cases found : path.fileName? with
  | none => decide
  | some last =>
      rw [Path.fileName?] at found
      split at found
      next text ends =>
        cases found
        exact isName_lock (Path.isName_of_mem_components (List.mem_of_getLast? ends))
      next => cases found

variable {token : String} (undivided : '/' ∉ token.toList)

include undivided

theorem not_endsInSeparator_aside (front : String) :
    Path.endsInSeparator ⟨front ++ (".stale-" ++ token)⟩ = false :=
  Path.not_endsInSeparator_append front (by simp) (by simp [undivided])

theorem slot_grave_located {directory : Location} {last : String}
    (found : disk.slot special (Target.located (directory ++ [last])).route = .ok (parent, name)) :
    let aside := grave (.located (directory ++ [last])) token
    last = name ∧ aside.route.path.endsInSeparator = false ∧
      (Disk.checkPath aside.route.path = .ok () → disk.slot .busy aside.route =
        .ok (parent, name ++ ".stale-" ++ token)) := by
  obtain ⟨_, ahead, _, spelled, _⟩ := Disk.slot_eq_ok_iff.1 found
  cases (List.append_inj' spelled rfl).2
  dsimp only
  rw [Target.grave_located]
  refine ⟨rfl, ?_, fun clean => Disk.slot_of_parts_eq found rfl rfl rfl clean ?_⟩
  · rw [Target.route, Location.route, String.append_assoc, Path.endsInSeparator, Location.text_path_append]
    exact not_endsInSeparator_aside undivided _
  · rw [String.append_assoc]
    constructor
    all_goals
      intro same
      have short := congrArg String.length same
      have suffix : ".stale-".length = 7 := by decide
      have bare : ".".length = 1 ∧ "..".length = 2 := by decide
      rw [String.length_append, String.length_append, suffix] at short
      omega

theorem slot_grave_joined {above : Path} {last : String} (isName : IsName last)
    (found : disk.slot special (Target.written (above.join ⟨last⟩)).route = .ok (parent, name)) :
    let aside := grave (.written (above.join ⟨last⟩)) token
    last = name ∧ (Target.written (above.join ⟨last⟩)).name = last ∧
      aside.route.path.endsInSeparator = false ∧
      (Disk.checkPath aside.route.path = .ok () → disk.slot .busy aside.route =
        .ok (parent, name ++ ".stale-" ++ token)) := by
  have newIsName := isName_aside isName undivided
  obtain ⟨front, newFront, named, split, newSplit, same⟩ := Path.walkNames_beside above isName newIsName
  obtain ⟨_, ahead, _, spelled, _⟩ := Disk.slot_eq_ok_iff.1 found
  obtain rfl : last = name := List.singleton_inj.1 (List.append_inj' (split.symm.trans spelled) rfl).2
  have nameIs : (Target.written (above.join ⟨last⟩)).name = last := by
    rw [Target.name, named, Option.getD_some]
  obtain ⟨beyond, joined⟩ := Path.exists_withFileName (above.join ⟨last⟩)
    (last ++ ".stale-" ++ token)
  obtain ⟨text, written⟩ := Path.exists_text_join beyond newIsName
  rw [joined] at newSplit
  dsimp only
  rw [grave, nameIs, Target.renamed, joined]
  refine ⟨rfl, rfl, ?_, fun clean => Disk.slot_of_parts_eq found split newSplit same clean ?_⟩
  · rw [Target.route, Path.route, Path.endsInSeparator, written, String.append_assoc,
      ← String.append_assoc]
    exact not_endsInSeparator_aside undivided _
  · exact ⟨newIsName.notHere, newIsName.notUp⟩

/-- The lock of a target is found under its name, and it is set aside in the same directory. -/
theorem slot_grave (found : disk.slot special target.lock.route = .ok (parent, name)) :
    let aside := grave target.lock token
    target.lock.name = name ∧ aside.route.path.endsInSeparator = false ∧
      (Disk.checkPath aside.route.path = .ok () → disk.slot .busy aside.route =
        .ok (parent, name ++ ".stale-" ++ token)) := by
  cases target with
  | located place =>
      obtain ⟨directory, last, lock⟩ : ∃ directory last,
          (Target.located place).lock = .located (directory ++ [last]) := ⟨_, _, rfl⟩
      rw [lock] at found ⊢
      obtain ⟨same, rest⟩ := slot_grave_located undivided found
      exact ⟨by simp [Target.name, same], rest⟩
  | written path =>
      obtain ⟨above, joined⟩ := Path.exists_withFileName path ((Target.written path).name ++ ".lock")
      have lock : (Target.written path).lock =
          .written (above.join ⟨(Target.written path).name ++ ".lock"⟩) := by
        rw [Target.lock, Target.renamed, joined]
      rw [lock] at found ⊢
      obtain ⟨same, named, rest⟩ := slot_grave_joined undivided (isName_lock_written path) found
      exact ⟨named.trans same, rest⟩

end Lock

end SourceBaseline
