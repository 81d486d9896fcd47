import SourceBaseline.Proofs.Boundary.Acceptance

/-!
# What is in the way of a path

Where no link stands on the way, a path leads to the place that it spells, whether anything is there
or not, unless something is in the way: a name is looked up below what is no directory, or it is too
long to be looked up. The parts after the first one that is missing are not looked up at all.
-/

set_option autoImplicit false

namespace SourceBaseline

theorem Path.follow_cons (here : List String) (part : Component) (rest : List Component) :
    follow here (part :: rest) = follow (follow here [part]) rest := by
  cases part with
  | root => rw [follow_root, follow_root, follow_nil]
  | here => rw [follow_here, follow_here, follow_nil]
  | up => rw [follow_up, follow_up, follow_nil]
  | name name => rw [follow_name, follow_name, follow_nil]

namespace Disk

variable {disk : Disk} {here : Location} {name : String} {entry : Entry}

theorem descend_past_directory {names more : List String}
    (short : ∀ name ∈ names, name.utf8ByteSize ≤ nameLimit)
    (stands : disk.find? (here ++ names) = some .directory) :
    descend disk.find? here (names ++ more) = descend disk.find? (here ++ names) more := by
  induction names generalizing here with
  | nil => simp
  | cons first rest ih =>
      rw [List.append_cons] at stands
      have entered : disk.find? (here ++ [first]) = some .directory := by
        by_cases last : rest = []
        · simpa [last] using stands
        · exact directory_of_above stands (List.prefix_append _ _) (by simpa using last)
      rw [List.append_cons here, List.cons_append, descend,
        if_neg (Nat.not_lt.2 (short first (.head _))), entered]
      exact ih (fun other member => short other (.tail _ member)) stands

/-- In a directory that fits, a name is looked up and found or missing, unless it is too long. -/
theorem inspectLink_in_directory (named : ∀ other ∈ here ++ [name], IsName other) (fits : here.Fits)
    (stands : disk.find? here = some .directory) :
    (Location.Fits (here ++ [name]) ∧ disk.inspectLink (Location.route (here ++ [name])) =
        (disk.find? (here ++ [name])).elim (.error .notFound) .ok) ∨
      ¬ Location.Fits (here ++ [name]) ∧
        ∃ fault, disk.inspectLink (Location.route (here ++ [name])) = .error fault ∧
          fault ≠ .notFound := by
  have free : disk.LinkFree (here ++ [name]).dropLast := by
    rw [List.dropLast_concat]
    exact linkFree_of_stands stands rfl
  have descended : descend disk.find? [] (here ++ [name]) = descend disk.find? here [name] :=
    descend_past_directory fits.names stands
  rw [inspectLink, locateLink_eq_descend named free, descended]
  cases clean : checkPath (Location.path (here ++ [name])) with
  | error fault =>
      refine .inr ⟨fun whole => ?_, fault, rfl, ?_⟩
      · cases clean.symm.trans whole.path
      · rintro rfl
        exact checkPath_ne_notFound clean
  | ok _ =>
      by_cases long : nameLimit < name.utf8ByteSize
      · refine .inr ⟨fun whole => ?_, .nameTooLong, ?_, by decide⟩
        · exact absurd long (Nat.not_lt.2 (whole.names name (by simp)))
        · simp [descend, long, bind, Except.bind]
      · refine .inl ⟨⟨clean, ?_⟩, ?_⟩
        · intro other member
          rcases List.mem_append.1 member with before | last
          · exact fits.names other before
          · exact List.mem_singleton.1 last ▸ Nat.not_lt.1 long
        · cases found : disk.find? (here ++ [name]) with
          | none => simp [descend, long, found, bind, Except.bind]
          | some entry => cases entry <;> simp [descend, long, found, bind, Except.bind]

/-- Nothing can be looked up below what stands and is neither a directory nor a link. -/
theorem inspectLink_below_leaf (named : ∀ other ∈ here ++ [name], IsName other) (fits : here.Fits)
    (stands : disk.find? here = some entry) (leaf : entry ≠ .directory)
    (noLink : entry.isLink = false) :
    ∃ fault, disk.inspectLink (Location.route (here ++ [name])) = .error fault ∧
      fault ≠ .notFound := by
  have free : disk.LinkFree (here ++ [name]).dropLast := by
    rw [List.dropLast_concat]
    exact linkFree_of_stands stands noLink
  rcases List.eq_nil_or_concat here with rfl | ⟨above, last, split⟩
  · exact absurd (Option.some.inj stands).symm leaf
  · rw [List.concat_eq_append] at split
    subst split
    have short : ∀ other ∈ above, other.utf8ByteSize ≤ nameLimit :=
      fun other member => fits.names other (List.mem_append_left _ member)
    have room : ¬ nameLimit < last.utf8ByteSize := Nat.not_lt.2 (fits.names last (by simp))
    have descended : descend disk.find? [] (above ++ [last] ++ [name]) = .error .notDirectory := by
      rw [List.append_assoc, descend_past_directory short (find?_above stands), List.nil_append,
        List.singleton_append, descend, if_neg room, stands]
      cases entry with
      | directory => exact absurd rfl leaf
      | file content age => rfl
      | link target => cases noLink
    rw [inspectLink, locateLink_eq_descend named free, descended]
    cases clean : checkPath (Location.path (above ++ [last] ++ [name])) with
    | error fault =>
        refine ⟨fault, rfl, ?_⟩
        rintro rfl
        exact checkPath_ne_notFound clean
    | ok _ => exact ⟨.notDirectory, rfl, by decide⟩

end Disk

namespace Boundary

/-- Nothing is in the way of the parts: as long as none of them is missing, each name is looked up in
a directory and is not too long for it. -/
def Unobstructed (disk : Disk) (here : Location) (parts : List Component) : Prop :=
  ∀ before name, before ++ [.name name] <+: parts →
    (∀ top, top <+: before → disk.find? (Path.follow here top) ≠ none) →
    disk.find? (Path.follow here before) = some .directory ∧
      Location.Fits (Path.follow here before ++ [name])

/-- The answer for a path that leads to the place. -/
def confined (boundary : Boundary) (shown : String) (place : Location) : Outcome Location :=
  if place.isWithin boundary.root then .ok place else .error (.outsideRoot shown)

variable {boundary : Boundary} {disk : Disk} {shown : String} {path : Path} {here : Location}
  {name : String} {part : Component} {parts rest : List Component}

theorem settles_end {missing : Bool} :
    boundary.Settles disk shown ⟨missing, here, []⟩ 0
      (boundary.confined shown (Path.follow here [])) := by
  rw [Path.follow_nil, confined]
  split
  next inside => exact .arrives inside
  next outside => exact .strays (by simpa using outside)

theorem unobstructed_cons (stands : disk.find? here ≠ none) :
    Unobstructed disk here (part :: rest) ↔
      (∀ name, part = .name name →
        disk.find? here = some .directory ∧ Location.Fits (here ++ [name])) ∧
      Unobstructed disk (Path.follow here [part]) rest := by
  constructor
  · intro clear
    refine ⟨?_, ?_⟩
    · rintro name rfl
      have reached : ∀ top, top <+: [] → disk.find? (Path.follow here top) ≠ none := by
        intro top within
        rw [List.prefix_nil.1 within, Path.follow_nil]
        exact stands
      have next := clear [] name ⟨rest, rfl⟩ reached
      rwa [Path.follow_nil] at next
    · intro before name within present
      rw [← Path.follow_cons]
      refine clear (part :: before) name ((List.prefix_cons_inj part).2 within) ?_
      intro top above
      rcases List.prefix_cons_iff.1 above with rfl | ⟨more, rfl, deeper⟩
      · rwa [Path.follow_nil]
      · rw [Path.follow_cons]
        exact present more deeper
  · rintro ⟨first, later⟩ before name within present
    cases before with
    | nil =>
        rw [Path.follow_nil]
        exact first name (List.cons_prefix_cons.1 within).1.symm
    | cons other more =>
        obtain ⟨rfl, deeper⟩ := List.cons_prefix_cons.1 within
        rw [Path.follow_cons]
        refine later more name deeper fun top above => ?_
        rw [← Path.follow_cons]
        exact present (other :: top) ((List.prefix_cons_inj other).2 above)

theorem unobstructed_of_missing (missing : disk.find? here = none) : Unobstructed disk here parts := by
  intro before name _ present
  have reached := present [] List.nil_prefix
  rw [Path.follow_nil] at reached
  exact absurd missing reached

instance decidableUnobstructed (disk : Disk) :
    (here : Location) → (parts : List Component) → Decidable (Unobstructed disk here parts)
  | _, [] => isTrue fun before name within => by simp at within
  | here, part :: rest =>
      if missing : disk.find? here = none then isTrue (unobstructed_of_missing missing)
      else
        have : Decidable (∀ name, part = .name name →
            disk.find? here = some .directory ∧ Location.Fits (here ++ [name])) :=
          match part with
          | .name name =>
              decidable_of_iff (disk.find? here = some .directory ∧ Location.Fits (here ++ [name]))
                ⟨fun both _ same => Component.name.inj same ▸ both, fun all => all name rfl⟩
          | .root | .here | .up => isTrue nofun
        have := decidableUnobstructed disk (Path.follow here [part]) rest
        decidable_of_iff _ (unobstructed_cons missing).symm

theorem step_aside {missing : Bool} (aside : ∀ name, part ≠ .name name) :
    Step disk ⟨missing, here, part :: rest⟩ ⟨missing, Path.follow here [part], rest⟩ := by
  cases part with
  | root =>
      rw [Path.follow_root, Path.follow_nil]
      exact .root
  | here =>
      rw [Path.follow_here, Path.follow_nil]
      exact .stay
  | up =>
      rw [Path.follow_up, Path.follow_nil]
      exact .up
  | name name => exact absurd rfl (aside name)

theorem follow_aside_prefix (aside : ∀ name, part ≠ .name name) :
    Path.follow here [part] <+: here := by
  cases part with
  | root => exact (Path.follow_nil here).symm ▸ List.prefix_rfl
  | here => exact (Path.follow_nil here).symm ▸ List.prefix_rfl
  | up =>
      rw [Path.follow_up, Path.follow_nil]
      exact List.dropLast_prefix here
  | name name => exact absurd rfl (aside name)

/-- A name is passed, whether it is there or missing, or something is in its way. -/
theorem step_or_faults (boundary : Boundary) (shown : String) (rest : List Component)
    (named : ∀ other ∈ here ++ [name], IsName other) (fits : here.Fits)
    (stands : disk.find? here ≠ none)
    (noLink : ∀ target, disk.find? here ≠ some (.link target))
    (noLinkThere : ∀ target, disk.find? (here ++ [name]) ≠ some (.link target)) :
    ((disk.find? here = some .directory ∧ Location.Fits (here ++ [name])) ∧
        Step disk ⟨false, here, .name name :: rest⟩
          ⟨(disk.find? (here ++ [name])).isNone, here ++ [name], rest⟩) ∨
      ¬ (disk.find? here = some .directory ∧ Location.Fits (here ++ [name])) ∧
        ∃ fault, boundary.Settles disk shown ⟨false, here, .name name :: rest⟩ 0
          (.error (.disk fault)) := by
  obtain ⟨entry, standing⟩ := Option.ne_none_iff_exists'.1 stands
  by_cases directory : entry = .directory
  · subst directory
    rcases Disk.inspectLink_in_directory named fits standing with
      ⟨fitsThere, inspected⟩ | ⟨unfit, fault, failed, fatal⟩
    · refine .inl ⟨⟨standing, fitsThere⟩, ?_⟩
      cases found : disk.find? (here ++ [name]) with
      | none => exact .absent (by rw [inspected, found]; rfl)
      | some inner =>
          refine .enter (by rw [inspected, found]; rfl) ?_
          rintro target rfl
          exact noLinkThere target found
    · exact .inr ⟨fun both => unfit both.2, fault, .faults failed fatal⟩
  · obtain ⟨fault, failed, fatal⟩ := Disk.inspectLink_below_leaf named fits standing directory
      (Disk.isLink_eq_false standing noLink)
    refine .inr ⟨fun both => ?_, fault, .faults failed fatal⟩
    cases standing.symm.trans both.1
    exact directory rfl

theorem settles_missing (boundary : Boundary) (disk : Disk) (shown : String) (here : Location)
    (parts : List Component) :
    boundary.Settles disk shown ⟨true, here, parts⟩ 0
      (boundary.confined shown (Path.follow here parts)) := by
  induction parts generalizing here with
  | nil => exact settles_end
  | cons part rest ih =>
      rw [Path.follow_cons]
      refine .step ?_ (ih _)
      cases part with
      | name name =>
          rw [Path.follow_name, Path.follow_nil]
          exact .written
      | root => exact step_aside nofun
      | here => exact step_aside nofun
      | up => exact step_aside nofun

/-- From a place that stands, with no link on the way, parts are followed to the place that they
spell, or something is in the way. -/
theorem settles_of_unlinked (boundary : Boundary) (shown : String)
    (named : ∀ name ∈ here, IsName name) (ahead : ∀ name, .name name ∈ parts → IsName name)
    (fits : here.Fits) (stands : disk.find? here ≠ none)
    (unlinked : ∀ top, top <+: parts → ∀ target,
      disk.find? (Path.follow here top) ≠ some (.link target)) :
    (Unobstructed disk here parts ∧
        boundary.Settles disk shown ⟨false, here, parts⟩ 0
          (boundary.confined shown (Path.follow here parts))) ∨
      ¬ Unobstructed disk here parts ∧
        ∃ fault, boundary.Settles disk shown ⟨false, here, parts⟩ 0 (.error (.disk fault)) := by
  -- The place that has been reached stands and fits; `..` leads from it to another such place.
  induction parts generalizing here with
  | nil => exact .inl ⟨fun before name within => by simp at within, settles_end⟩
  | cons part rest ih =>
      have unlinkedHere : ∀ target, disk.find? here ≠ some (.link target) := by
        rw [← Path.follow_nil here]
        exact unlinked [] List.nil_prefix
      have unlinkedLater : ∀ top, top <+: rest → ∀ target,
          disk.find? (Path.follow (Path.follow here [part]) top) ≠ some (.link target) := by
        intro top within target
        rw [← Path.follow_cons]
        exact unlinked (part :: top) ((List.prefix_cons_inj part).2 within) target
      have aheadLater : ∀ name, .name name ∈ rest → IsName name :=
        fun name member => ahead name (.tail _ member)
      rw [unobstructed_cons stands, Path.follow_cons here part rest]
      by_cases aside : ∀ name, part ≠ .name name
      · have above : Path.follow here [part] <+: here := follow_aside_prefix aside
        have standsThere : disk.find? (Path.follow here [part]) ≠ none := by
          by_cases same : Path.follow here [part] = here
          · rwa [same]
          · obtain ⟨entry, standing⟩ := Option.ne_none_iff_exists'.1 stands
            rw [Disk.directory_of_above standing above same]
            exact nofun
        rcases ih (fun name member => named name (above.subset member)) aheadLater
          (fits.above above) standsThere unlinkedLater with
          ⟨clear, settles⟩ | ⟨blocked, fault, settles⟩
        · exact .inl ⟨⟨fun name same => absurd same (aside name), clear⟩,
            .step (step_aside aside) settles⟩
        · exact .inr ⟨fun both => blocked both.2, fault, .step (step_aside aside) settles⟩
      · obtain ⟨name, spelled⟩ := Classical.not_forall.1 aside
        obtain rfl := Classical.not_not.1 spelled
        have there : Path.follow here [.name name] = here ++ [name] := by
          rw [Path.follow_name, Path.follow_nil]
        rw [there] at unlinkedLater ⊢
        have namedThere := Location.named_concat named (ahead name (.head _))
        have unlinkedThere : ∀ target, disk.find? (here ++ [name]) ≠ some (.link target) := by
          rw [← Path.follow_nil (here ++ [name])]
          exact unlinkedLater [] List.nil_prefix
        rcases step_or_faults boundary shown rest namedThere fits stands unlinkedHere unlinkedThere
          with ⟨passes, moved⟩ | ⟨blocked, fault, faults⟩
        · have first : ∀ other, Component.name name = .name other →
              disk.find? here = some .directory ∧ Location.Fits (here ++ [other]) := by
            rintro _ ⟨⟩
            exact passes
          -- From the first name that is missing on, nothing can be in the way.
          cases found : disk.find? (here ++ [name]) with
          | none =>
              rw [found] at moved
              exact .inl ⟨⟨first, unobstructed_of_missing found⟩,
                .step moved (settles_missing boundary disk shown _ rest)⟩
          | some entry =>
              rw [found] at moved
              rcases ih namedThere aheadLater passes.2 (by simp [found]) unlinkedLater with
                ⟨clear, settles⟩ | ⟨blocked, fault, settles⟩
              · exact .inl ⟨⟨first, clear⟩, .step moved settles⟩
              · exact .inr ⟨fun both => blocked both.2, fault, .step moved settles⟩
        · exact .inr ⟨fun both => blocked (both.1 name rfl), fault, faults⟩

/-- Where no link is on the way, a relative path is judged by the place that it spells, unless
something is in the way to it: then the lookup fails. -/
theorem validate_of_unlinked (relative : path.isAbsolute = false)
    (stands : disk.find? boundary.root = some .directory)
    (unlinked : ∀ top, top <+: path.components → ∀ target,
      disk.find? (Path.follow boundary.root top) ≠ some (.link target)) :
    (boundary.root.Fits ∧ Unobstructed disk boundary.root path.components ∧
        boundary.validate disk path =
          boundary.confined (boundary.redact (boundary.absolute path))
            (Path.follow boundary.root path.components)) ∨
      ¬ (boundary.root.Fits ∧ Unobstructed disk boundary.root path.components) ∧
        ∃ fault, boundary.validate disk path = .error (.disk fault) := by
  have begins : boundary.start path = ⟨false, [], boundary.root.map .name ++ path.components⟩ := by
    rw [start, if_neg (by simp [relative])]
  have answered : ∀ outcome, boundary.Settles disk (boundary.redact (boundary.absolute path))
      (boundary.start path) 0 outcome → boundary.validate disk path = outcome := by
    intro outcome settles
    rw [validate_eq_conclude, settles.conclude_eq, if_neg (Nat.not_lt_zero _)]
  rw [begins] at answered
  have fitsTop : Location.Fits [] := ⟨by decide, by simp⟩
  rcases passes_or_faults boundary (boundary.redact (boundary.absolute path)) path.components
      fitsTop boundary.named stands with ⟨fits, passed⟩ | ⟨unfit, fault, faults⟩
  · rw [List.nil_append] at fits passed
    rcases settles_of_unlinked boundary (boundary.redact (boundary.absolute path)) boundary.named
      (fun name member => Path.isName_of_mem_components member) fits (by simp [stands]) unlinked with
      ⟨clear, settles⟩ | ⟨blocked, fault, settles⟩
    · exact .inl ⟨fits, clear, answered _ (passed.settles settles)⟩
    · exact .inr ⟨fun both => blocked both.2, fault, answered _ (passed.settles settles)⟩
  · exact .inr ⟨fun both => unfit both.1, fault, answered _ faults⟩

/-- A relative path that spells a place inside the root is accepted just if nothing is in its way. -/
theorem exists_validate_iff (relative : path.isAbsolute = false)
    (stands : disk.find? boundary.root = some .directory)
    (unlinked : ∀ top, top <+: path.components → ∀ target,
      disk.find? (Path.follow boundary.root top) ≠ some (.link target))
    (inside : Location.isWithin (Path.follow boundary.root path.components) boundary.root = true) :
    (∃ place, boundary.validate disk path = .ok place) ↔
      boundary.root.Fits ∧ Unobstructed disk boundary.root path.components := by
  rcases validate_of_unlinked relative stands unlinked with ⟨fits, clear, valid⟩ | ⟨blocked, _, failed⟩
  · rw [confined, if_pos inside] at valid
    exact iff_of_true ⟨_, valid⟩ ⟨fits, clear⟩
  · exact iff_of_false (by simp [failed]) blocked

end Boundary

end SourceBaseline
