import SourceBaseline.Proofs.Boundary.Standing
import SourceBaseline.Proofs.Boundary.Threshold

/-!
# Paths that never leave the root

Physical resolution may stay inside the root all the way and the boundary still refuse the path: the
target of a link is judged by its text, where `..` takes back the name before it even if that name is
a link to somewhere else. `validate_of_roams` says which of these paths are accepted.
-/

set_option autoImplicit false

namespace SourceBaseline.Boundary

instance : DecidablePred Location.Fits := fun location =>
  decidable_of_iff (Disk.checkPath (Location.path location) = .ok () ∧
      ∀ name ∈ location, name.utf8ByteSize ≤ Disk.nameLimit)
    ⟨fun fits => ⟨fits.1, fits.2⟩, fun fits => ⟨fits.path, fits.names⟩⟩

/-- Whether the boundary lets a path pass the entry, which is met at that place inside the root: the
text of a link must not lead out of the root. -/
def admits (boundary : Boundary) : Location × Entry → Bool
  | (place, .link target) => (linkTarget place.dropLast target).isWithin boundary.root
  | _ => true

/-- Physical resolution that never leaves the root and follows only relative links: from a place
inside the root the names lead to another one, past these entries. -/
inductive Roams (boundary : Boundary) (disk : Disk) :
    Location → List String → List (Location × Entry) → Location → Prop where
  | nil {here} : Roams boundary disk here [] [] here
  | stay {here rest met place} :
      Roams boundary disk here rest met place → Roams boundary disk here ("." :: rest) met place
  | up {here rest met place} :
      Location.isWithin here.dropLast boundary.root = true →
      Roams boundary disk here.dropLast rest met place →
      Roams boundary disk here (".." :: rest) met place
  | enter {here name rest met place} :
      name ≠ "." → name ≠ ".." → disk.find? (here ++ [name]) = some .directory →
      Roams boundary disk (here ++ [name]) rest met place →
      Roams boundary disk here (name :: rest) ((here ++ [name], .directory) :: met) place
  | file {here name content age} :
      name ≠ "." → name ≠ ".." → disk.find? (here ++ [name]) = some (.file content age) →
      Roams boundary disk here [name] [(here ++ [name], .file content age)] (here ++ [name])
  | follow {here name rest target met place} :
      name ≠ "." → name ≠ ".." → disk.find? (here ++ [name]) = some (.link target) →
      target.isAbsolute = false →
      Roams boundary disk here (target.walkNames ++ rest) met place →
      Roams boundary disk here (name :: rest) ((here ++ [name], .link target) :: met) place

/-- What validation comes to on the way past these entries to a place inside the root. -/
structure Judges (boundary : Boundary) (shown : String) (met : List (Location × Entry))
    (place : Location) (outcome : Outcome Location) : Prop where
  accepts : (∀ seen ∈ met, seen.1.Fits) → (∀ seen ∈ met, boundary.admits seen = true) →
    outcome = .ok place
  refuses : (∀ seen ∈ met, seen.1.Fits) → (∃ seen ∈ met, boundary.admits seen = false) →
    outcome = .error (.outsideRoot shown)
  fails : (∃ seen ∈ met, ¬ seen.1.Fits) → ∃ error, outcome = .error error

variable {boundary : Boundary} {disk : Disk} {shown : String} {path : Path} {here place : Location}
  {name : String} {names : List String} {parts steps : List Component} {part : Component}
  {missing : Bool} {entry : Entry} {seen : Location × Entry} {met : List (Location × Entry)}
  {outcome : Outcome Location}

/-! ## What is met first -/

theorem judges_nil : boundary.Judges shown [] place (.ok place) :=
  ⟨fun _ _ => rfl, nofun, nofun⟩

theorem Judges.cons (fits : seen.1.Fits) (admitted : boundary.admits seen = true)
    (judges : boundary.Judges shown met place outcome) :
    boundary.Judges shown (seen :: met) place outcome := by
  refine ⟨?_, ?_, ?_⟩
  · intro fit allowed
    exact judges.accepts (fun other member => fit other (.tail _ member))
      fun other member => allowed other (.tail _ member)
  · intro fit refused
    obtain ⟨other, member, barred⟩ := refused
    rcases List.mem_cons.1 member with rfl | later
    · cases admitted.symm.trans barred
    · exact judges.refuses (fun other member => fit other (.tail _ member)) ⟨other, later, barred⟩
  · intro unfit
    obtain ⟨other, member, long⟩ := unfit
    rcases List.mem_cons.1 member with rfl | later
    · exact absurd fits long
    · exact judges.fails ⟨other, later, long⟩

theorem judges_of_barred (barred : boundary.admits seen = false) :
    boundary.Judges shown (seen :: met) place (.error (.outsideRoot shown)) := by
  refine ⟨?_, fun _ _ => rfl, fun _ => ⟨_, rfl⟩⟩
  intro _ allowed
  cases (allowed seen (.head _)).symm.trans barred

theorem judges_of_unfit {fault : Fault} (unfit : ¬ seen.1.Fits) :
    boundary.Judges shown (seen :: met) place (.error (.disk fault)) :=
  ⟨fun fit _ => absurd (fit seen (.head _)) unfit, fun fit _ => absurd (fit seen (.head _)) unfit,
    fun _ => ⟨_, rfl⟩⟩

/-- What stands in the next place is looked up, or it does not fit and validation fails. -/
theorem looks_up_or_faults (named : ∀ other ∈ here ++ [name], IsName other)
    (stands : disk.find? (here ++ [name]) = some entry) :
    (Location.Fits (here ++ [name]) ∧
        disk.inspectLink (Location.route (here ++ [name])) = .ok entry) ∨
      ¬ Location.Fits (here ++ [name]) ∧
        ∃ fault, ∀ rest,
          boundary.Settles disk shown ⟨false, here, .name name :: rest⟩ 0 (.error (.disk fault)) := by
  have fits := Disk.inspectLink_eq_ok_iff named stands
  by_cases short : Location.Fits (here ++ [name])
  · exact .inl ⟨short, fits.2 short⟩
  · refine .inr ⟨short, ?_⟩
    have free := Disk.linkFree_dropLast_of_stands stands
    cases inspected : disk.inspectLink (Location.route (here ++ [name])) with
    | ok found =>
        have same := Disk.find?_of_inspectLink named free inspected
        cases stands.symm.trans same
        exact absurd (fits.1 inspected) short
    | error fault =>
        refine ⟨fault, fun rest => .faults inspected ?_⟩
        rintro rfl
        cases stands.symm.trans (Disk.find?_of_inspectLink_notFound named free inspected)

/-! ## Parts that lead nowhere -/

theorem reaches_end (nowhere : Component.steps parts = []) :
    boundary.Reaches disk ⟨missing, here, parts⟩ 0 ⟨missing, here, []⟩ := by
  induction parts with
  | nil => exact .start
  | cons part rest ih =>
      cases part with
      | root => exact .step .root (ih nowhere)
      | here => exact .step .stay (ih nowhere)
      | up => simp [Component.steps, Component.isStep] at nowhere
      | name name => simp [Component.steps, Component.isStep] at nowhere

theorem reaches_step (first : Component.steps parts = part :: steps) :
    ∃ rest, Component.steps rest = steps ∧
      boundary.Reaches disk ⟨missing, here, parts⟩ 0 ⟨missing, here, part :: rest⟩ := by
  induction parts with
  | nil => simp [Component.steps] at first
  | cons next rest ih =>
      cases next with
      | root =>
          obtain ⟨more, same, reached⟩ := ih first
          exact ⟨more, same, .step .root reached⟩
      | here =>
          obtain ⟨more, same, reached⟩ := ih first
          exact ⟨more, same, .step .stay reached⟩
      | up =>
          obtain ⟨rfl, same⟩ := List.cons.inj first
          exact ⟨rest, same, .start⟩
      | name name =>
          obtain ⟨rfl, same⟩ := List.cons.inj first
          exact ⟨rest, same, .start⟩

/-- The entry with the next name is looked up, or it does not fit and validation fails. -/
theorem reaches_name (isName : IsName name) (named : ∀ other ∈ here ++ [name], IsName other)
    (same : Component.steps parts = (name :: names).filterMap Path.componentOf?)
    (stands : disk.find? (here ++ [name]) = some entry) :
    ∃ rest, Component.steps rest = names.filterMap Path.componentOf? ∧
      boundary.Reaches disk ⟨false, here, parts⟩ 0 ⟨false, here, .name name :: rest⟩ ∧
      (Location.Fits (here ++ [name]) ∧
          disk.inspectLink (Location.route (here ++ [name])) = .ok entry ∨
        ¬ Location.Fits (here ++ [name]) ∧
          ∃ fault, boundary.Settles disk shown ⟨false, here, parts⟩ 0 (.error (.disk fault))) := by
  rw [List.filterMap_cons_some (Path.componentOf?_of_isName isName)] at same
  obtain ⟨rest, sameRest, reached⟩ := reaches_step same
  refine ⟨rest, sameRest, reached, ?_⟩
  rcases looks_up_or_faults named stands with found | ⟨unfit, fault, faults⟩
  · exact .inl found
  · exact .inr ⟨unfit, fault, reached.settles (faults rest)⟩

/-! ## The way through the root and on -/

theorem passes_or_faults (boundary : Boundary) (shown : String) (parts : List Component)
    (fits : here.Fits) (named : ∀ name ∈ here ++ names, IsName name)
    (stands : disk.find? (here ++ names) = some .directory) :
    (Location.Fits (here ++ names) ∧
        boundary.Reaches disk ⟨false, here, names.map .name ++ parts⟩ 0
          ⟨false, here ++ names, parts⟩) ∨
      ¬ Location.Fits (here ++ names) ∧
        ∃ fault, boundary.Settles disk shown ⟨false, here, names.map .name ++ parts⟩ 0
          (.error (.disk fault)) := by
  induction names generalizing here with
  | nil =>
      rw [List.append_nil]
      exact .inl ⟨fits, .start⟩
  | cons name rest ih =>
      rw [List.append_cons] at named stands ⊢
      have within : (here ++ [name]) <+: here ++ [name] ++ rest := List.prefix_append _ _
      have standsHere : disk.find? (here ++ [name]) = some .directory := by
        by_cases last : rest = []
        · simpa [last] using stands
        · exact Disk.directory_of_above stands within (by simpa using last)
      rcases looks_up_or_faults (fun other member => named other (within.subset member)) standsHere
        with ⟨fitsHere, found⟩ | ⟨unfit, fault, faults⟩
      · have enters : Step disk ⟨false, here, (name :: rest).map .name ++ parts⟩
            ⟨false, here ++ [name], rest.map .name ++ parts⟩ := .enter found nofun
        rcases ih fitsHere named stands with ⟨fitsThere, reached⟩ | ⟨unfit, fault, settles⟩
        · exact .inl ⟨fitsThere, .step enters reached⟩
        · exact .inr ⟨unfit, fault, .step enters settles⟩
      · exact .inr ⟨fun fits => unfit (fits.above within), fault, faults _⟩

/-- Along a resolution that never leaves the root, validation settles as the entries on the way say,
after no more links than are among them. -/
theorem Roams.settles (shown : String) (roams : boundary.Roams disk here names met place)
    (same : Component.steps parts = names.filterMap Path.componentOf?)
    (whole : ∀ name ∈ names, name ≠ "" ∧ '/' ∉ name.toList) (named : ∀ name ∈ here, IsName name)
    (inside : here.isWithin boundary.root = true) :
    ∃ links outcome, boundary.Settles disk shown ⟨false, here, parts⟩ links outcome ∧
      links ≤ met.countP (fun seen => seen.2.isLink) ∧
      boundary.Judges shown met place outcome := by
  have later : ∀ {name : String} {rest : List String},
      (∀ other ∈ name :: rest, other ≠ "" ∧ '/' ∉ other.toList) →
      ∀ other ∈ rest, other ≠ "" ∧ '/' ∉ other.toList :=
    fun whole other member => whole other (.tail _ member)
  have isName : ∀ {name : String} {rest : List String},
      (∀ other ∈ name :: rest, other ≠ "" ∧ '/' ∉ other.toList) → name ≠ "." → name ≠ ".." →
      IsName name := by
    intro name rest whole notHere notUp
    obtain ⟨nonempty, undivided⟩ := whole name (.head _)
    exact ⟨nonempty, notHere, notUp, undivided⟩
  have deeper : ∀ {here : Location} {name : String}, here.isWithin boundary.root = true →
      Location.isWithin (here ++ [name]) boundary.root = true := by
    intro here name inside
    exact List.isPrefixOf_iff_prefix.2
      ((List.isPrefixOf_iff_prefix.1 inside).trans (List.prefix_append _ _))
  induction roams generalizing parts with
  | nil => exact ⟨0, _, (reaches_end same).settles (.arrives inside), Nat.zero_le _, judges_nil⟩
  | stay _ ih => exact ih same (later whole) named inside
  | up insideAbove _ ih =>
      obtain ⟨rest, sameRest, reached⟩ := reaches_step same
      obtain ⟨links, outcome, settles, few, judges⟩ := ih sameRest (later whole)
        (fun name member => named name (List.dropLast_subset _ member)) insideAbove
      refine ⟨links, outcome, ?_, few, judges⟩
      exact Nat.zero_add links ▸ reached.settles (.step .up settles)
  | @enter here name names met place notHere notUp stands _ ih =>
      have proper := isName whole notHere notUp
      have namedThere := Location.named_concat named proper
      obtain ⟨rest, sameRest, reached, ⟨fits, found⟩ | ⟨unfit, fault, faults⟩⟩ :=
        reaches_name proper namedThere same stands
      · obtain ⟨links, outcome, settles, few, judges⟩ :=
          ih sameRest (later whole) namedThere (deeper inside)
        refine ⟨links, outcome, ?_, ?_, judges.cons fits rfl⟩
        · exact Nat.zero_add links ▸ reached.settles (.step (.enter found (by simp)) settles)
        · simpa [Entry.isLink] using few
      · exact ⟨0, _, faults, Nat.zero_le _, judges_of_unfit unfit⟩
  | @file here name content age notHere notUp stands =>
      have proper := isName whole notHere notUp
      have namedThere := Location.named_concat named proper
      obtain ⟨rest, sameRest, reached, ⟨fits, found⟩ | ⟨unfit, fault, faults⟩⟩ :=
        reaches_name proper namedThere same stands
      · have ended : boundary.Settles disk shown ⟨false, here ++ [name], rest⟩ 0
            (.ok (here ++ [name])) := (reaches_end sameRest).settles (.arrives (deeper inside))
        exact ⟨0, _, reached.settles (.step (.enter found (by simp)) ended), Nat.zero_le _,
          judges_nil.cons fits rfl⟩
      · exact ⟨0, _, faults, Nat.zero_le _, judges_of_unfit unfit⟩
  | @follow here name names target met place notHere notUp stands relative _ ih =>
      have proper := isName whole notHere notUp
      have namedThere := Location.named_concat named proper
      obtain ⟨rest, sameRest, reached, ⟨fits, found⟩ | ⟨unfit, fault, faults⟩⟩ :=
        reaches_name proper namedThere same stands
      · have judged : boundary.admits (here ++ [name], .link target) =
            (linkTarget here target).isWithin boundary.root := by
          rw [admits, List.dropLast_concat]
        have counted : met.countP (fun seen => seen.2.isLink) + 1 =
            List.countP (fun seen : Location × Entry => seen.2.isLink)
              ((here ++ [name], .link target) :: met) := by
          simp [Entry.isLink]
        rw [← counted]
        cases held : (linkTarget here target).isWithin boundary.root with
        | false =>
            refine ⟨1, _, ?_, Nat.succ_le_succ (Nat.zero_le _), judges_of_barred (judged.trans held)⟩
            exact reached.settles (.leaves found (deeper inside) held)
        | true =>
            -- The target is resolved from where the link stands, with the names after it behind.
            have ahead : ∀ other ∈ target.walkNames ++ names, other ≠ "" ∧ '/' ∉ other.toList := by
              intro other member
              rcases List.mem_append.1 member with inTarget | behind
              · exact Path.undivided_of_mem_walkNames inTarget
              · exact whole other (.tail _ behind)
            have sameThere : Component.steps (target.components ++ rest) =
                (target.walkNames ++ names).filterMap Path.componentOf? := by
              rw [Component.steps_append, List.filterMap_append, Path.filterMap_walkNames_eq_steps,
                sameRest]
            obtain ⟨links, outcome, settles, few, judges⟩ := ih sameThere ahead named inside
            have hops : Hop boundary disk ⟨false, here, .name name :: rest⟩
                ⟨false, if target.isAbsolute then [] else here, target.components ++ rest⟩ :=
              .link found fun _ => held
            rw [if_neg (by simp [relative])] at hops
            refine ⟨links + 1, outcome, ?_, Nat.succ_le_succ few,
              judges.cons fits (judged.trans held)⟩
            exact Nat.zero_add (links + 1) ▸ reached.settles (.hop hops settles)
      · exact ⟨0, _, faults, Nat.zero_le _, judges_of_unfit unfit⟩

/-- A relative path that is resolved without ever leaving the root, through relative links only and
no more of them than the budget allows, is accepted with the place that it leads to just if the text
of no link on the way leads out of the root and nothing on the way is too long to be looked up. If
nothing is too long but the text of a link leads out, the path is refused, although it never leaves
the root. -/
theorem validate_of_roams (relative : path.isAbsolute = false)
    (stands : disk.find? boundary.root = some .directory)
    (roams : boundary.Roams disk boundary.root path.walkNames met place)
    (few : met.countP (fun seen => seen.2.isLink) ≤ boundary.linkBudget) :
    (boundary.validate disk path = .ok place ↔
        boundary.root.Fits ∧ ∀ seen ∈ met, seen.1.Fits ∧ boundary.admits seen = true) ∧
      (boundary.root.Fits → (∀ seen ∈ met, seen.1.Fits) →
        (∃ seen ∈ met, boundary.admits seen = false) →
        boundary.validate disk path =
          .error (.outsideRoot (boundary.redact (boundary.absolute path)))) := by
  have begins : boundary.start path = ⟨false, [], boundary.root.map .name ++ path.components⟩ := by
    rw [start, if_neg (by simp [relative])]
  have fitsTop : Location.Fits [] := ⟨by decide, nofun⟩
  rcases passes_or_faults boundary (boundary.redact (boundary.absolute path)) path.components
      fitsTop boundary.named stands with ⟨fits, passed⟩ | ⟨unfit, fault, faults⟩
  · obtain ⟨links, outcome, settles, bound, judges⟩ := roams.settles
      (boundary.redact (boundary.absolute path)) (Path.filterMap_walkNames_eq_steps path).symm
      (fun name member => Path.undivided_of_mem_walkNames member) boundary.named
      (List.isPrefixOf_iff_prefix.2 List.prefix_rfl)
    have answered : boundary.validate disk path = outcome := by
      rw [validate_eq_conclude, begins, (passed.settles settles).conclude_eq, if_neg (by omega)]
    rw [answered]
    refine ⟨⟨?_, ?_⟩, fun _ => judges.refuses⟩
    · intro accepted
      refine ⟨fits, fun seen member => ?_⟩
      have fit : ∀ seen ∈ met, seen.1.Fits := by
        intro seen member
        apply Classical.byContradiction
        intro unfit
        obtain ⟨error, failed⟩ := judges.fails ⟨seen, member, unfit⟩
        cases accepted.symm.trans failed
      refine ⟨fit seen member, ?_⟩
      cases admitted : boundary.admits seen with
      | true => rfl
      | false => cases accepted.symm.trans (judges.refuses fit ⟨seen, member, admitted⟩)
    · intro clear
      exact judges.accepts (fun seen member => (clear.2 seen member).1)
        fun seen member => (clear.2 seen member).2
  · have answered : boundary.validate disk path = .error (.disk fault) := by
      rw [validate_eq_conclude, begins, faults.conclude_eq, if_neg (Nat.not_lt_zero _)]
    rw [answered]
    exact ⟨iff_of_false nofun fun clear => unfit clear.1, fun fits => absurd fits unfit⟩

/-- A project in which `l` leads through `d`, which stands for a directory two levels down, back up
to `y.txt`. -/
def roamingDisk : Disk :=
  let project := (Disk.blank.put [] "project" .directory).put ["project"] "y.txt" (.file .empty 0)
  let deep := (project.put ["project"] "deep" .directory).put ["project", "deep"] "inner" .directory
  (deep.put ["project"] "d" (.link ⟨"deep/inner"⟩)).put ["project"] "l" (.link ⟨"d/../../y.txt"⟩)

/-- The entries on the way through `d` to `y.txt`. -/
def roamingWay : List (Location × Entry) :=
  [(["project", "d"], .link ⟨"deep/inner"⟩), (["project", "deep"], .directory),
    (["project", "deep", "inner"], .directory), (["project", "y.txt"], .file .empty 0)]

theorem roams_roamingWay :
    Roams ⟨["project"], 8, by decide⟩ roamingDisk ["project"] ["d", "..", "..", "y.txt"] roamingWay
      ["project", "y.txt"] := by
  apply Roams.follow (by decide) (by decide) (by decide +kernel) (by decide)
  have inner : Path.walkNames ⟨"deep/inner"⟩ = ["deep", "inner"] := by decide +kernel
  rw [inner]
  apply Roams.enter (by decide) (by decide) (by decide +kernel)
  apply Roams.enter (by decide) (by decide) (by decide +kernel)
  apply Roams.up (by decide)
  apply Roams.up (by decide)
  exact .file (by decide) (by decide) (by decide +kernel)

theorem roams_link :
    Roams ⟨["project"], 8, by decide⟩ roamingDisk ["project"] ["l"]
      ((["project", "l"], .link ⟨"d/../../y.txt"⟩) :: roamingWay) ["project", "y.txt"] := by
  apply Roams.follow (by decide) (by decide) (by decide +kernel) (by decide)
  have names : Path.walkNames ⟨"d/../../y.txt"⟩ = ["d", "..", "..", "y.txt"] := by decide +kernel
  rw [names]
  exact roams_roamingWay

theorem validate_of_roams_through_directory :
    validate ⟨["project"], 8, by decide⟩ roamingDisk ⟨"d/../../y.txt"⟩ = .ok ["project", "y.txt"] ∧
      validate ⟨["project"], 8, by decide⟩ roamingDisk ⟨"l"⟩ = .error (.outsideRoot "l") := by
  have stands : roamingDisk.find? ["project"] = some .directory := by decide +kernel
  have plain : Path.walkNames ⟨"d/../../y.txt"⟩ = ["d", "..", "..", "y.txt"] := by decide +kernel
  have linked : Path.walkNames ⟨"l"⟩ = ["l"] := by decide +kernel
  have accepted := (validate_of_roams (by decide) stands (plain ▸ roams_roamingWay) (by decide)).1
  have refused := (validate_of_roams (by decide) stands (linked ▸ roams_link) (by decide)).2
  refine ⟨accepted.2 ⟨by decide +kernel, by decide +kernel⟩, ?_⟩
  exact (refused (by decide +kernel) (by decide +kernel)
    ⟨_, .head _, by decide +kernel⟩).trans (by decide +kernel)

/-- The path of that link never leaves the root, and it is refused. -/
theorem validate_refuses_roaming :
    Roams ⟨["project"], 8, by decide⟩ roamingDisk ["project"] (Path.walkNames ⟨"l"⟩)
        ((["project", "l"], .link ⟨"d/../../y.txt"⟩) :: roamingWay) ["project", "y.txt"] ∧
      validate ⟨["project"], 8, by decide⟩ roamingDisk ⟨"l"⟩ = .error (.outsideRoot "l") := by
  have names : Path.walkNames ⟨"l"⟩ = ["l"] := by decide +kernel
  refine ⟨names ▸ roams_link, by decide +kernel⟩

end SourceBaseline.Boundary
