import Mathlib.Data.List.TakeWhile
import SourceBaseline.Registry

/-!
# The last entry wins

Conventions and languages are looked up by the extension of a file. An entry applies to a file if it spells
its extension, in whatever case and with dots in front of it, and the last entry that applies decides.
Entries that do not apply have no part in the answer.
-/

set_option autoImplicit false

namespace SourceBaseline

universe u v w

variable {α : Type} {file : String} {registrations : List (List String × α)}

/-! ## Keys and extensions -/

/-- The key is the extension in some case of its ASCII letters, with dots in front or without. -/
def Spells (key extension : String) : Prop :=
  ∃ dots letters : List Char, key.toList = dots ++ letters ∧ (∀ char ∈ dots, char = '.') ∧
    letters.head? ≠ some '.' ∧ letters.map Char.toLower = extension.toList.map Char.toLower

/-- Whether an entry with the key is one for the file. -/
def AppliesTo (key file : String) : Prop :=
  ∃ extension, (Path.mk file).extension? = some extension ∧ Spells key extension

theorem asciiLower_eq_iff {left right : String} :
    Text.asciiLower left = Text.asciiLower right ↔
      left.toList.map Char.toLower = right.toList.map Char.toLower := by
  rw [Text.asciiLower, Text.asciiLower, String.ofList_inj]

theorem spells_iff {key extension : String} :
    Spells key extension ↔ extensionKey key = Text.asciiLower extension := by
  rw [extensionKey, asciiLower_eq_iff, String.toList_ofList]
  constructor
  · rintro ⟨dots, letters, whole, dotted, head, same⟩
    have kept : letters.dropWhile (· = '.') = letters := by
      cases letters with
      | nil => rfl
      | cons first rest => exact List.dropWhile_cons_of_neg (by simpa using head)
    rw [whole, List.dropWhile_append_of_pos (by simpa using dotted), kept, same]
  · intro same
    refine ⟨key.toList.takeWhile (· = '.'), _, List.takeWhile_append_dropWhile.symm, ?_, ?_, same⟩
    · intro char member
      simpa using List.mem_takeWhile_imp member
    · intro dot
      have kept := List.head?_dropWhile_not (· = '.') key.toList
      rw [dot] at kept
      cases kept

theorem appliesTo_iff {key file : String} :
    AppliesTo key file ↔ lookupExtension? ⟨file⟩ = some (extensionKey key) := by
  rw [lookupExtension?, Option.map_eq_some_iff]
  simp only [AppliesTo, spells_iff, eq_comm (a := extensionKey key)]

instance (key file : String) : Decidable (AppliesTo key file) :=
  decidable_of_iff _ appliesTo_iff.symm

/-! ## One entry after another -/

section Writes

variable {σ : Type u} {β : Type v} {γ : Type w} {entries : List β}

/-- The last of the entries of which something holds. -/
def IsLast (holds : β → Prop) (entries : List β) (entry : β) : Prop :=
  ∃ before after, entries = before ++ entry :: after ∧ holds entry ∧ ∀ later ∈ after, ¬ holds later

theorem IsLast.mem {holds : β → Prop} {entry : β} (last : IsLast holds entries entry) : entry ∈ entries := by
  obtain ⟨before, after, rfl, _⟩ := last
  exact List.mem_append_right _ (.head _)

/-- Writing an entry that applies replaces what is read, and writing any other entry leaves it. -/
structure Overwrites (write : σ → β → σ) (read : σ → Option γ) (holds : β → Prop) (value : β → γ) :
    Prop where
  hit : ∀ state entry, holds entry → read (write state entry) = some (value entry)
  miss : ∀ state entry, ¬ holds entry → read (write state entry) = read state

variable {write : σ → β → σ} {read : σ → Option γ} {holds : β → Prop} {value : β → γ} {state other : σ}

theorem exists_isLast_or (holds : β → Prop) (entries : List β) :
    (∃ entry, IsLast holds entries entry) ∨ ∀ entry ∈ entries, ¬ holds entry := by
  induction entries with
  | nil => exact .inr nofun
  | cons first rest ih =>
      rcases ih with ⟨entry, before, after, rfl, held, later⟩ | none
      · exact .inl ⟨entry, first :: before, after, rfl, held, later⟩
      · by_cases held : holds first
        · exact .inl ⟨first, [], rest, rfl, held, none⟩
        · exact .inr (List.forall_mem_cons.2 ⟨held, none⟩)

theorem Overwrites.read_foldl_of_none (overwrites : Overwrites write read holds value)
    (none : ∀ entry ∈ entries, ¬ holds entry) : read (entries.foldl write state) = read state := by
  induction entries generalizing state with
  | nil => rfl
  | cons first rest ih =>
      obtain ⟨free, later⟩ := List.forall_mem_cons.1 none
      rw [List.foldl_cons, ih later, overwrites.miss state first free]

theorem Overwrites.read_foldl_of_isLast {entry : β} (overwrites : Overwrites write read holds value)
    (last : IsLast holds entries entry) : read (entries.foldl write state) = some (value entry) := by
  obtain ⟨before, after, rfl, held, later⟩ := last
  rw [List.foldl_append, List.foldl_cons, overwrites.read_foldl_of_none later,
    overwrites.hit _ entry held]

/-- Entries that do not apply can be left out. -/
theorem Overwrites.read_foldl_filter [DecidablePred holds]
    (overwrites : Overwrites write read holds value) (same : read other = read state) :
    read ((entries.filter holds).foldl write other) = read (entries.foldl write state) := by
  induction entries generalizing state other with
  | nil => exact same
  | cons first rest ih =>
      by_cases held : holds first
      · rw [List.filter_cons_of_pos (by simpa using held)]
        exact ih ((overwrites.hit other first held).trans (overwrites.hit state first held).symm)
      · rw [List.filter_cons_of_neg (by simpa using held)]
        exact ih (same.trans (overwrites.miss state first held).symm)

end Writes

/-! ## Tables -/

/-- What a table holds for the extension of the file. -/
def lookUp? (file : String) (table : SortedMap String α) : Option α :=
  (lookupExtension? ⟨file⟩).bind table.find?

def enter (table : SortedMap String α) (entry : String × α) : SortedMap String α :=
  table.insert (extensionKey entry.1) entry.2

theorem overwrites_enter (file : String) :
    Overwrites (enter (α := α)) (lookUp? file) (fun entry => AppliesTo entry.1 file) Prod.snd where
  hit table entry applies := by
    rw [lookUp?, appliesTo_iff.1 applies, Option.bind_some, enter, SortedMap.find?_insert, if_pos rfl]
  miss table entry foreign := by
    rw [lookUp?, lookUp?]
    cases found : lookupExtension? ⟨file⟩ with
    | none => rfl
    | some extension =>
        have other : extensionKey entry.1 ≠ extension := by
          rintro rfl
          exact foreign (appliesTo_iff.2 found)
        rw [Option.bind_some, enter, SortedMap.find?_insert, if_neg other, Option.bind_some]

namespace VisibilityPolicy

/-- The convention without overrides. -/
def builtIn (file : String) : Convention :=
  match lookupExtension? ⟨file⟩ with
  | none => .everything
  | some extension =>
      if extension ∈ underscoreExtensions then .underscore
      else if extension = "go" then .capitalized
      else .everything

theorem conventionFor_standard (file : String) : standard.conventionFor file = builtIn file := by
  rw [conventionFor, builtIn]
  cases lookupExtension? ⟨file⟩ with
  | none => rfl
  | some extension =>
      have found : ∀ convention,
          (extension, convention) ∈
            underscoreExtensions.map (·, Convention.underscore) ++ [("go", Convention.capitalized)] →
          standard.byExtension.find? extension = some convention :=
        fun _ member => SortedMap.find?_ofList_of_mem (by decide) member
      dsimp only
      rw [Option.bind_some]
      split
      next underscored =>
        rw [found .underscore (by simpa using underscored)]
        rfl
      next plain =>
        split
        next same =>
          rw [found .capitalized (by simp [same])]
          rfl
        next other =>
          have absent : standard.byExtension.find? extension = none := by
            refine SortedMap.find?_ofList_eq_none_iff.2 fun entry member named => ?_
            rcases List.mem_append.1 member with underscored | capital
            · obtain ⟨name, inside, rfl⟩ := List.mem_map.1 underscored
              exact plain (named ▸ inside)
            · rw [List.mem_singleton.1 capital] at named
              exact other named.symm
          rw [absent]
          rfl

theorem conventionFor_withOverrides (overrides : SortedMap String Convention) (file : String) :
    (withOverrides overrides).conventionFor file =
      (lookUp? file (overrides.entries.foldl enter standard.byExtension)).getD .everything :=
  rfl

theorem conventionFor_withOverrides_eq_iff {overrides : SortedMap String Convention}
    {convention : Convention} :
    (withOverrides overrides).conventionFor file = convention ↔
      (∃ entry, IsLast (fun entry => AppliesTo entry.1 file) overrides.entries entry ∧
        entry.2 = convention) ∨
      (∀ entry ∈ overrides.entries, ¬ AppliesTo entry.1 file) ∧ builtIn file = convention := by
  have decided : ∀ entry, IsLast (fun entry => AppliesTo entry.1 file) overrides.entries entry →
      (withOverrides overrides).conventionFor file = entry.2 := by
    intro entry last
    rw [conventionFor_withOverrides, (overwrites_enter file).read_foldl_of_isLast last, Option.getD_some]
  have standing : (∀ entry ∈ overrides.entries, ¬ AppliesTo entry.1 file) →
      (withOverrides overrides).conventionFor file = builtIn file := by
    intro none
    rw [conventionFor_withOverrides, (overwrites_enter file).read_foldl_of_none none,
      ← conventionFor_standard]
    rfl
  constructor
  · rintro rfl
    rcases exists_isLast_or (fun entry => AppliesTo entry.1 file) overrides.entries with
      ⟨entry, last⟩ | none
    · exact .inl ⟨entry, last, (decided entry last).symm⟩
    · exact .inr ⟨none, (standing none).symm⟩
  · rintro (⟨entry, last, rfl⟩ | ⟨none, rfl⟩)
    · exact decided entry last
    · exact standing none

theorem conventionFor_withOverrides_congr {overrides others : SortedMap String Convention}
    (same : others.entries.filter (AppliesTo ·.1 file) = overrides.entries.filter (AppliesTo ·.1 file)) :
    (withOverrides others).conventionFor file = (withOverrides overrides).conventionFor file := by
  rw [conventionFor_withOverrides, conventionFor_withOverrides,
    ← (overwrites_enter file).read_foldl_filter rfl, same, (overwrites_enter file).read_foldl_filter rfl]

end VisibilityPolicy

namespace Registry

/-- The registry after these registrations, one after another. -/
def ofRegistrations (registrations : List (List String × α)) : Registry α :=
  registrations.foldl (fun registry entry => registry.register entry.1 entry.2) empty

/-- The extensions in the order in which they are registered, each with what is registered for it. -/
def registered (registrations : List (List String × α)) : List (String × α) :=
  registrations.flatMap fun entry => entry.1.map (·, entry.2)

theorem registered_cons (first : List String × α) (rest : List (List String × α)) :
    registered (first :: rest) = first.1.map (·, first.2) ++ registered rest :=
  List.flatMap_cons

theorem byExtension_register (registry : Registry α) (extensions : List String) (language : α) :
    (registry.register extensions language).byExtension =
      (extensions.map (·, language)).foldl enter registry.byExtension := by
  rw [List.foldl_map]
  rfl

theorem byExtension_ofRegistrations (registrations : List (List String × α)) :
    (ofRegistrations registrations).byExtension = (registered registrations).foldl enter .empty := by
  have onward : ∀ registry : Registry α,
      (registrations.foldl (fun registry entry => registry.register entry.1 entry.2) registry).byExtension =
        (registered registrations).foldl enter registry.byExtension := by
    induction registrations with
    | nil => exact fun _ => rfl
    | cons first rest ih =>
        intro registry
        rw [List.foldl_cons, ih, byExtension_register, registered_cons, List.foldl_append]
  exact onward empty

theorem overwrites_register (file : String) :
    Overwrites (fun (registry : Registry α) (entry : List String × α) => registry.register entry.1 entry.2)
      (fun registry => registry.languageOf? file)
      (fun entry => ∃ extension ∈ entry.1, AppliesTo extension file) Prod.snd where
  hit registry entry applies := by
    obtain ⟨extensions, language⟩ := entry
    have read : (registry.register extensions language).languageOf? file =
        lookUp? file ((extensions.map (·, language)).foldl enter registry.byExtension) := by
      rw [← byExtension_register]
      rfl
    rcases exists_isLast_or (fun entry => AppliesTo entry.1 file) (extensions.map (·, language)) with
      ⟨entry, last⟩ | none
    · obtain ⟨extension, _, rfl⟩ := List.mem_map.1 last.mem
      rw [read, (overwrites_enter file).read_foldl_of_isLast last]
    · obtain ⟨extension, member, named⟩ := applies
      exact absurd named (none _ (List.mem_map_of_mem member))
  miss registry entry foreign := by
    obtain ⟨extensions, language⟩ := entry
    have none : ∀ entry ∈ extensions.map (·, language), ¬ AppliesTo entry.1 file := by
      intro entry member applies
      obtain ⟨extension, inside, rfl⟩ := List.mem_map.1 member
      exact foreign ⟨extension, inside, applies⟩
    exact (congrArg (lookUp? file) (byExtension_register registry extensions language)).trans
      ((overwrites_enter file).read_foldl_of_none none)

theorem languageOf?_ofRegistrations_eq_some_iff {language : α} :
    (ofRegistrations registrations).languageOf? file = some language ↔
      ∃ entry, IsLast (fun entry => ∃ extension ∈ entry.1, AppliesTo extension file) registrations entry ∧
        entry.2 = language := by
  have decided : ∀ entry,
      IsLast (fun entry => ∃ extension ∈ entry.1, AppliesTo extension file) registrations entry →
      (ofRegistrations registrations).languageOf? file = some entry.2 :=
    fun entry last => (overwrites_register file).read_foldl_of_isLast last
  have nothing : (∀ entry ∈ registrations, ¬ ∃ extension ∈ entry.1, AppliesTo extension file) →
      (ofRegistrations registrations).languageOf? file = none := by
    intro none
    refine ((overwrites_register file).read_foldl_of_none none).trans ?_
    rw [languageOf?]
    cases lookupExtension? ⟨file⟩ <;> rfl
  constructor
  · intro found
    rcases exists_isLast_or (fun entry => ∃ extension ∈ entry.1, AppliesTo extension file) registrations
      with ⟨entry, last⟩ | none
    · rw [decided entry last] at found
      exact ⟨entry, last, Option.some.inj found⟩
    · rw [nothing none] at found
      cases found
  · rintro ⟨entry, last, rfl⟩
    exact decided entry last

theorem languageOf?_ofRegistrations_congr {others : List (List String × α)}
    (same : (registered others).filter (AppliesTo ·.1 file) =
      (registered registrations).filter (AppliesTo ·.1 file)) :
    (ofRegistrations others).languageOf? file = (ofRegistrations registrations).languageOf? file := by
  have read : ∀ registrations : List (List String × α), (ofRegistrations registrations).languageOf? file =
      lookUp? file (((registered registrations).filter (AppliesTo ·.1 file)).foldl enter .empty) := by
    intro registrations
    rw [(overwrites_enter file).read_foldl_filter rfl, ← byExtension_ofRegistrations]
    rfl
  rw [read, read, same]

end Registry

/-- The last entry that applies to a file decides: of its convention, which is the built-in one if no
override applies, and of what is registered for it. What else is entered has no part in the answers. -/
theorem last_entry_wins (overrides : SortedMap String Convention)
    (registrations : List (List String × α)) (file : String) :
    (∀ convention, (VisibilityPolicy.withOverrides overrides).conventionFor file = convention ↔
      (∃ entry, IsLast (fun entry => AppliesTo entry.1 file) overrides.entries entry ∧
        entry.2 = convention) ∨
      (∀ entry ∈ overrides.entries, ¬ AppliesTo entry.1 file) ∧
        VisibilityPolicy.builtIn file = convention) ∧
    (∀ others : SortedMap String Convention,
      others.entries.filter (AppliesTo ·.1 file) = overrides.entries.filter (AppliesTo ·.1 file) →
      (VisibilityPolicy.withOverrides others).conventionFor file =
        (VisibilityPolicy.withOverrides overrides).conventionFor file) ∧
    (∀ language, (Registry.ofRegistrations registrations).languageOf? file = some language ↔
      ∃ entry, IsLast (fun entry => ∃ extension ∈ entry.1, AppliesTo extension file) registrations entry ∧
        entry.2 = language) ∧
    ∀ others : List (List String × α),
      (Registry.registered others).filter (AppliesTo ·.1 file) =
        (Registry.registered registrations).filter (AppliesTo ·.1 file) →
      (Registry.ofRegistrations others).languageOf? file =
        (Registry.ofRegistrations registrations).languageOf? file :=
  ⟨fun _ => VisibilityPolicy.conventionFor_withOverrides_eq_iff,
    fun _ same => VisibilityPolicy.conventionFor_withOverrides_congr same,
    fun _ => Registry.languageOf?_ofRegistrations_eq_some_iff,
    fun _ same => Registry.languageOf?_ofRegistrations_congr same⟩

/-- Two entries apply to the file, of which the later one decides, and the others may be any. -/
theorem last_entry_wins_respelled :
    let overrides : SortedMap String Convention :=
      .ofList [(".Py", .capitalized), ("go", .underscore), ("py", .everything)]
    let others : SortedMap String Convention :=
      .ofList [("..md", .capitalized), (".Py", .capitalized), ("py", .everything), ("rs", .everything)]
    let registrations : List (List String × Language) :=
      [(["md", ".Py"], .markdown), (["go"], .go), (["PY", "rs"], .python)]
    let otherRegistrations : List (List String × Language) :=
      [([".Py"], .markdown), (["PY", "sh"], .python), (["rs"], .rust)]
    others.entries.filter (AppliesTo ·.1 "a.pY") = overrides.entries.filter (AppliesTo ·.1 "a.pY") ∧
      (VisibilityPolicy.withOverrides others).conventionFor "a.pY" =
        (VisibilityPolicy.withOverrides overrides).conventionFor "a.pY" ∧
      (Registry.registered otherRegistrations).filter (AppliesTo ·.1 "a.pY") =
        (Registry.registered registrations).filter (AppliesTo ·.1 "a.pY") ∧
      (Registry.ofRegistrations otherRegistrations).languageOf? "a.pY" =
        (Registry.ofRegistrations registrations).languageOf? "a.pY" := by
  intro overrides others registrations otherRegistrations
  have same : others.entries.filter (AppliesTo ·.1 "a.pY") =
      overrides.entries.filter (AppliesTo ·.1 "a.pY") := by decide +kernel
  have sameToo : (Registry.registered otherRegistrations).filter (AppliesTo ·.1 "a.pY") =
      (Registry.registered registrations).filter (AppliesTo ·.1 "a.pY") := by decide +kernel
  obtain ⟨_, conventions, _, languages⟩ := last_entry_wins overrides registrations "a.pY"
  exact ⟨same, conventions others same, sameToo, languages otherRegistrations sameToo⟩

end SourceBaseline
