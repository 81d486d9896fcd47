import SourceBaseline.Proofs.Engine.Exclusion
import SourceBaseline.Proofs.Glob
import SourceBaseline.Proofs.Walk.Ceiling

/-!
# The state directory and the walk

A state directory is kept out of the tree by a rule that is made of its own path. `exists_compile?`
says that such a rule excludes the directory, wildcards and stars in its name included, as long as
the path is read as it is written: it does not begin with a blank, which is taken off, and no
character in it stands for something else.
-/

set_option autoImplicit false

namespace SourceBaseline

/-! ## Rules made of a path -/

namespace ExcludeRule

variable {text : List Char}

theorem accepts_of_matches {glob : Glob} (matched : Glob.Matches glob (Glob.encode text)) :
    (subtree glob).accepts (Glob.encode text) = true := by
  rw [accepts_subtree, List.any_eq_true]
  exact ⟨_, mem_leadingPaths_iff.2 (.inl rfl), Glob.accepts_iff.2 matched⟩

theorem exists_compileBase? (tame : ∀ char ∈ text, Glob.isTame char = true) (inner : text ≠ []) :
    ∃ rule, compileBase? (text ++ ['/', '*', '*']) = some rule ∧
      rule.accepts (Glob.encode text) = true := by
  obtain ⟨glob, parsed, matched⟩ := Glob.exists_parse?_of_tame tame
  obtain ⟨char, rest, rfl⟩ := List.exists_cons_of_ne_nil inner
  refine ⟨.subtree glob, ?_, accepts_of_matches matched⟩
  have before : Text.beforeSuffix? "/**".toList (char :: rest ++ ['/', '*', '*']) =
      some (char :: rest) := by
    have suffix : "/**".toList = ['/', '*', '*'] := by decide
    rw [suffix, Text.beforeSuffix?, if_pos (by simp)]
    simp
  unfold compileBase?
  rw [before]
  simp only [parsed, Option.map_some]

/-- Whatever of the path is taken for two stars at any depth, the rest is the end of the path. -/
theorem exists_compile? (tame : ∀ char ∈ text, Glob.isTame char = true) (inner : text ≠ [])
    (ends : text.getLast? ≠ some '/') :
    ∃ rule, compile? (text ++ ['/', '*', '*']) = some rule ∧
      rule.accepts (Glob.encode text) = true := by
  fun_induction compile? text with
  | case1 char rest ih =>
      obtain ⟨rule, compiled, accepted⟩ := ih
        (fun other member => tame other (.tail _ (.tail _ (.tail _ member)))) (by simp)
        (by simpa using ends)
      refine ⟨.anyDepth rule, ?_, ?_⟩
      · rw [List.cons_append, List.cons_append, List.cons_append, List.cons_append, compile?,
          ← List.cons_append, compiled]
        rfl
      -- The two stars that were taken for any depth may stand for the path as it is written.
      · rw [accepts_anyDepth, List.any_eq_true]
        exact ⟨_, .tail _ (mem_afterSlashes_iff.2 ⟨Glob.encode ['*', '*'], rfl⟩), accepted⟩
  | case2 pattern apart =>
      by_cases stars : pattern = ['*', '*']
      · subst stars
        exact ⟨.anyDepth (.plain .anything), by decide +kernel, by decide +kernel⟩
      · have plain : compile? (pattern ++ ['/', '*', '*']) =
            compileBase? (pattern ++ ['/', '*', '*']) := by
          -- Two stars and a separator do not begin the pattern either once the end is written
          -- behind it.
          rw [compile?.eq_def]
          split
          next char rest same =>
            exfalso
            match pattern, inner, ends, apart, stars, same with
            | [first], _, _, _, _, same => simp at same
            | [first, second], _, _, _, stars, same => simp_all
            | [first, second, third], _, ends, _, _, same => simp_all
            | first :: second :: third :: fourth :: more, _, _, apart, _, same =>
                simp only [List.cons_append, List.cons.injEq] at same
                obtain ⟨rfl, rfl, rfl, _, _⟩ := same
                exact apart fourth more rfl
          next => rfl
        rw [plain]
        exact exists_compileBase? tame inner

end ExcludeRule

/-- A directory by whose path a rule can be made: it is not the root, and its path does not begin with
a blank and holds no character that stands for something else in a pattern. -/
structure Ruled (names : List String) : Prop where
  inner : names ≠ []
  flush : (Walk.relativePath names).toList.head?.any Text.isBlank = false
  tame : ∀ char ∈ (Walk.relativePath names).toList, Glob.isTame char = true

namespace Exclude

variable {names : List String} {user : List String}

theorem relativePath_ne_nil (named : ∀ name ∈ names, IsName name) (inner : names ≠ []) :
    (Walk.relativePath names).toList ≠ [] := by
  intro empty
  have pieces := Location.pieces_intercalate named inner
  obtain ⟨first, rest, rfl⟩ := List.exists_cons_of_ne_nil inner
  rw [Walk.relativePath] at empty
  rw [empty, Text.pieces, List.map_cons] at pieces
  exact (named first (.head _)).nonempty (String.toList_injective (List.cons.inj pieces).1.symm)

theorem getLast?_relativePath (named : ∀ name ∈ names, IsName name) (inner : names ≠ []) :
    (Walk.relativePath names).toList.getLast? ≠ some '/' := by
  obtain ⟨char, rest, text⟩ := List.exists_cons_of_ne_nil (relativePath_ne_nil named inner)
  rcases List.eq_nil_or_concat names with none | ⟨directory, name, split⟩
  · exact absurd none inner
  · rw [List.concat_eq_append] at split
    subst split
    have ends := @Location.not_endsInSeparator directory name (named name (by simp))
    rw [Walk.relativePath] at text ⊢
    simpa [Path.endsInSeparator, Location.path, text] using ends

theorem tidy_subtree (named : ∀ name ∈ names, IsName name) (ruled : Ruled names) :
    tidy (Walk.relativePath names ++ "/**") = (Walk.relativePath names).toList ++ ['/', '*', '*'] := by
  have namedToo : ∀ name ∈ names ++ ["**"], IsName name := Location.named_concat named (by decide)
  have longer : (Walk.relativePath (names ++ ["**"])).toList =
      (Walk.relativePath names).toList ++ ['/', '*', '*'] := by
    rw [Walk.relativePath, String.intercalate_append_of_ne_nil ruled.inner (by simp)]
    simp [Walk.relativePath]
  have kept := dropLeading_relativePath namedToo (by simp)
  obtain ⟨char, rest, text⟩ := List.exists_cons_of_ne_nil (relativePath_ne_nil named ruled.inner)
  have flush : Text.isBlank char = false := by
    have flush := ruled.flush
    rwa [text] at flush
  have trimmed : Text.trim ((Walk.relativePath names).toList ++ ['/', '*', '*']) =
      (Walk.relativePath names).toList ++ ['/', '*', '*'] := by
    have star : Text.isBlank '*' = false := by decide
    rw [Text.trim, text, List.cons_append, List.dropWhile_cons_of_neg (by simp [flush]),
      Text.dropTrailing]
    simp [star]
  rw [tidy, String.toList_append, show "/**".toList = ['/', '*', '*'] by decide, trimmed, ← longer, kept]

theorem isExcluded_of_ruled (named : ∀ name ∈ names, IsName name) (ruled : Ruled names)
    (member : Walk.relativePath names ++ "/**" ∈ user) :
    (withUserRules user).isExcluded (Walk.relativePath names) = true := by
  obtain ⟨rule, compiled, accepted⟩ := ExcludeRule.exists_compile? ruled.tame
    (relativePath_ne_nil named ruled.inner) (getLast?_relativePath named ruled.inner)
  have read : rule? (Walk.relativePath names ++ "/**") =
      some (.ofList ((Walk.relativePath names).toList ++ ['/', '*', '*']), rule) := by
    unfold rule?
    rw [tidy_subtree named ruled]
    split
    next none => simp at none
    next => rw [compiled, Option.map_some]
  rw [isExcluded_iff, pathBytes_relativePath named ruled.inner]
  exact ⟨_, List.mem_filterMap.2 ⟨_, List.mem_append_right _ member, read⟩, accepted⟩

end Exclude

/-! ## The walk -/

theorem Walk.mem_listed_of_mem_items {walk : Walk} {disk : Disk} {deadline : Deadline}
    {file : TrackedFile} (member : .ok file ∈ walk.items disk deadline) :
    file ∈ walk.listed disk := by
  by_cases expired : deadline.isExpired = true
  · rw [items, visit_of_expired expired] at member
    simp at member
  · rw [items_eq (by simpa using expired)] at member
    rcases List.mem_append.1 member with handed | failed
    · obtain ⟨other, among, same⟩ := List.mem_map.1 handed
      cases same
      exact List.mem_of_mem_take among
    · split at failed
      next => simp at failed
      next => cases failed

namespace Engine

variable {engine : Engine} {extractor : Extractor} {settings : Settings} {opening disk : Disk}
  {root : Path} {names : List String} {deadline : Deadline} {file : TrackedFile}

theorem isExcluded_stateDirectory (opened : withSettings extractor settings opening root = .ok engine)
    (place : engine.stateDirectory = engine.boundary.root ++ names) (ruled : Ruled names) :
    engine.exclude.isExcluded (Walk.relativePath names) = true := by
  have made := madeFrom_of_withSettings opened
  have named : ∀ name ∈ names, IsName name := fun name member =>
    made.named name (place ▸ List.mem_append_right _ member)
  rw [made.rules]
  by_cases default : Walk.relativePath names = defaultStateDirectory
  · rw [default]
    exact Exclude.isExcluded_withUserRules (by decide +kernel) _
  · apply Exclude.isExcluded_of_ruled named ruled
    rw [stateRules, place, Location.below?_append]
    simp [default]

/-- As long as a rule can be made of the path of the state directory, nothing in it is ever handed out
by the walk: not the baselines and not their locks, on no disk and whatever the user excludes. A file
that is handed out and whose content is in the state directory is a link from elsewhere. -/
theorem state_directory_unlisted
    (opened : withSettings extractor settings opening root = .ok engine)
    (place : engine.stateDirectory = engine.boundary.root ++ names) (ruled : Ruled names)
    (member : .ok file ∈ engine.walk.items disk deadline) :
    ∃ others entry, file.relative = Walk.relativePath others ∧
      disk.find? (engine.boundary.root ++ others) = some entry ∧
      ¬ engine.stateDirectory <+: engine.boundary.root ++ others ∧
      (disk.Named → engine.stateDirectory <+: file.absolute → ∃ target, entry = .link target) := by
  obtain ⟨others, entry, kept, tracked⟩ :=
    Walk.mem_listed_iff_kept.1 (Walk.mem_listed_of_mem_items member)
  obtain ⟨inner, stands, _, keeps⟩ := Walk.mem_kept_iff.1 kept
  have apart : ¬ engine.stateDirectory <+: engine.boundary.root ++ others := by
    rw [place, List.prefix_append_right_inj]
    exact fun within =>
      Walk.not_keeps within ruled.inner (isExcluded_stateDirectory opened place ruled) keeps
  refine ⟨others, entry, Walk.relative_of_tracked? tracked, stands, apart, ?_⟩
  intro named within
  have tracks := Walk.tracks_of_tracked? named inner stands tracked
  generalize file.absolute = absolute at within tracks
  cases tracks with
  | file _ _ => exact absurd within apart
  | link link _ _ => exact ⟨_, Option.some.inj (stands.symm.trans link)⟩

/-- `plainEngine` with another state directory in the root. -/
def placedEngine (name : String) : Engine :=
  { plainEngine with
    exclude := .withUserRules [name ++ "/**"]
    settings := { Settings.standard with stateDirectory := ⟨name⟩ }
    stateDirectory := ["project", name] }

theorem withSettings_placed {name : String}
    (state : Boundary.projectBoundary.validate Boundary.leavingDisk ⟨name⟩ = .ok ["project", name])
    (other : Walk.relativePath [name] ≠ defaultStateDirectory) :
    withSettings ⟨.empty, fun _ _ => default⟩ { Settings.standard with stateDirectory := ⟨name⟩ }
      Boundary.leavingDisk ⟨"/project"⟩ = .ok (placedEngine name) := by
  have boundary : Boundary.open? Boundary.leavingDisk ⟨"/project"⟩ defaultLinkBudget =
      .ok Boundary.projectBoundary := by
    decide +kernel
  have below : Location.below? Boundary.projectBoundary.root ["project", name] = some [name] :=
    Location.below?_append ["project"] [name]
  have rules : stateRules Boundary.projectBoundary ["project", name] = [name ++ "/**"] := by
    have alone : Walk.relativePath [name] = name := by simp [Walk.relativePath]
    rw [alone] at other
    simp only [stateRules, below, alone, if_neg other]
  simp only [withSettings, Settings.standard, boundary, state, bind, Except.bind]
  rw [rules]
  rfl

/-- A project with a baseline in the state directory `st*`. -/
def starDisk : Disk :=
  let stated := (noteDisk.put ["project"] "st*" .directory).put ["project", "st*"] "memory" .directory
  stated.put ["project", "st*", "memory"] "repo-baseline.json" (.file .empty 0)

theorem state_directory_unlisted_star :
    .ok ⟨"note", ["project", "note"]⟩ ∈
        (placedEngine "st*").walk.items starDisk (.start "snapshot" none) ∧
      ∃ others entry, "note" = Walk.relativePath others ∧
        starDisk.find? ("project" :: others) = some entry ∧
        ¬ ["project", "st*"] <+: "project" :: others ∧
        (starDisk.Named → ["project", "st*"] <+: ["project", "note"] →
          ∃ target, entry = .link target) := by
  have listed : (placedEngine "st*").walk.enumerate starDisk (.start "snapshot" none) =
      .ok [⟨"note", ["project", "note"]⟩] := by
    decide +kernel
  have state : Boundary.projectBoundary.validate Boundary.leavingDisk ⟨"st*"⟩ =
      .ok ["project", "st*"] := by
    decide +kernel
  have member := Walk.mem_of_mapM listed (.head _)
  exact ⟨member, state_directory_unlisted (withSettings_placed state (by decide)) rfl
    ⟨by decide, by decide, List.all_eq_true.1 (by decide)⟩ member⟩

/-- A state directory whose name is read as a class is walked like any other. -/
theorem walk_lists_baseline :
    withSettings ⟨.empty, fun _ _ => default⟩
        { Settings.standard with stateDirectory := ⟨"st[ab]"⟩ } Boundary.leavingDisk ⟨"/project"⟩ =
        .ok (placedEngine "st[ab]") ∧
      ((placedEngine "st[ab]").create false (plainHost Boundary.leavingDisk)).1.isOk = true ∧
      .ok ⟨"st[ab]/memory/repo-baseline.json", ["project", "st[ab]", "memory", "repo-baseline.json"]⟩ ∈
        (placedEngine "st[ab]").walk.items
          ((placedEngine "st[ab]").create false (plainHost Boundary.leavingDisk)).2.disk
          (.start "snapshot" none) := by
  have evaluated :
      ((placedEngine "st[ab]").create false (plainHost Boundary.leavingDisk)).1.isOk = true ∧
      (placedEngine "st[ab]").walk.enumerate
          ((placedEngine "st[ab]").create false (plainHost Boundary.leavingDisk)).2.disk
          (.start "snapshot" none) =
        .ok [⟨"st[ab]/memory/repo-baseline.json",
            ["project", "st[ab]", "memory", "repo-baseline.json"]⟩,
          ⟨"st[ab]/memory/symbol-baseline.json",
            ["project", "st[ab]", "memory", "symbol-baseline.json"]⟩] := by
    decide +kernel
  refine ⟨withSettings_placed (by decide +kernel) (by decide), evaluated.1, ?_⟩
  exact Walk.mem_of_mapM evaluated.2 (.head _)

end Engine

end SourceBaseline
