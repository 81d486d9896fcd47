import SourceBaseline.Proofs.Engine.Corruption
import SourceBaseline.Proofs.Json.Settlement

/-!
# Documents with damaged parts

The document of a symbol baseline may get elements that are no symbols, files without a list, and
members that mean nothing, at any places. What is restored from it stays the same: each record is read
by itself. But before the records are read the text is read as a whole, and that fails as soon as one
part of it has no meaning at all: a number out of range, half a pair of surrogates, or deep nesting.
-/

set_option autoImplicit false

namespace SourceBaseline

namespace Symbol

/-- The names of the members of a written symbol. -/
def memberNames : List String :=
  ["column", "doc", "enclosing", "file", "kind", "line", "name", "signature"]

/-- A record with further members whose names mean nothing. -/
inductive Padded : Json → Json → Prop where
  | object {clean damaged} :
      Strewn (fun member => ∀ name ∈ memberNames, member.1 ≠ some name) Eq clean damaged →
      Padded (.object clean) (.object damaged)

/-- A list of records, some of them padded, with further elements that are no symbols. -/
inductive DamagedList : Json → Json → Prop where
  | array {clean damaged} :
      Strewn (fun element => decode? element.settle = none) Padded clean damaged →
      DamagedList (.array clean) (.array damaged)

/-- The lists of files, some of them damaged, with further files that have no list. -/
inductive DamagedFiles : Json → Json → Prop where
  | object {clean damaged} :
      Strewn (fun entry => (∀ other ∈ clean, other.1 ≠ entry.1) ∧ entry.2.items? = none)
        (fun entry changed => changed.1 = entry.1 ∧ DamagedList entry.2 changed.2) clean damaged →
      DamagedFiles (.object clean) (.object damaged)

variable {clean damaged : Json}

theorem decode?_of_padded (padded : Padded clean damaged) :
    decode? damaged.settle = decode? clean.settle := by
  cases padded with
  | @object clean damaged strewn =>
      have found : ∀ name ∈ memberNames,
          (Json.settled damaged).find? name = (Json.settled clean).find? name := by
        intro name known
        apply Json.find?_settled_eq strewn (fun member unknown => unknown name known)
        · rintro member _ rfl
          rfl
        · rintro member _ rfl _
          rfl
      have fields : (Json.object damaged).settle.fields? memberNames 7 =
          (Json.object clean).settle.fields? memberNames 7 := by
        rw [Json.fields?_settle, Json.fields?_settle, List.map_congr_left found]
      unfold memberNames at fields
      simp only [decode?, fields]

/-- The symbols of a list of records. -/
def ofRecords? (json : Json) : Option (List Symbol) :=
  json.items?.map (·.filterMap decode?)

theorem ofRecords?_of_damagedList (listDamaged : DamagedList clean damaged) :
    ofRecords? damaged.settle = ofRecords? clean.settle := by
  obtain ⟨strewn⟩ := listDamaged
  have records : ∀ items, ofRecords? (Json.array items).settle =
      some (items.filterMap fun item => decode? item.settle) := by
    intro items
    rw [ofRecords?, Json.items?_settle, Json.items?, Option.map_some, Option.map_some,
      List.filterMap_map]
    rfl
  rw [records, records, strewn.filterMap_eq (fun _ broken => broken) fun _ _ => decode?_of_padded]

end Symbol

namespace SymbolBaseline

theorem find?_soundSymbols (members : SortedMap String Json) (file : String) :
    (soundSymbols members.entries).find? file = (members.find? file).bind Symbol.ofRecords? := by
  apply Option.ext
  intro symbols
  rw [soundSymbols, SortedMap.find?_eq_some_iff, SortedMap.entries_ofList, List.mem_filterMap,
    Option.bind_eq_some_iff]
  · simp only [SortedMap.find?_eq_some_iff, Symbol.ofRecords?, Option.map_eq_some_iff]
    constructor
    · rintro ⟨⟨name, value⟩, member, records, found, ⟨⟩⟩
      exact ⟨value, member, records, found, rfl⟩
    · rintro ⟨value, member, records, found, rfl⟩
      exact ⟨(file, value), member, records, found, rfl⟩
  · -- The entries that are left stand in the order of the members.
    refine List.pairwise_filterMap.2 (members.sorted.imp ?_)
    intro left right less first found second foundToo
    obtain ⟨_, _, rfl⟩ := Option.map_eq_some_iff.1 found
    obtain ⟨_, _, rfl⟩ := Option.map_eq_some_iff.1 foundToo
    exact less

/-- The symbols of an object of files. -/
def ofFiles? (json : Json) : Option SymbolMap :=
  json.members?.map soundSymbols

theorem ofFiles?_of_damagedFiles {clean damaged : Json}
    (filesDamaged : Symbol.DamagedFiles clean damaged) :
    ofFiles? damaged.settle = ofFiles? clean.settle := by
  cases filesDamaged with
  | @object clean damaged strewn =>
      rw [ofFiles?, ofFiles?, Json.members?_settle, Json.members?_settle, Option.map_some,
        Option.map_some]
      refine congrArg some (SortedMap.ext_find? fun file => ?_)
      rw [find?_soundSymbols, find?_soundSymbols]
      by_cases known : ∃ entry ∈ clean, entry.1 = some file
      · obtain ⟨entry, inside, named⟩ := known
        have found := Json.map_find?_settled Symbol.ofRecords? file strewn
          (fun further fresh same => fresh.1 entry inside (named.trans same.symm))
          (fun before changed became => became.1)
          fun before changed became _ => Symbol.ofRecords?_of_damagedList became.2
        simpa [Option.bind_map] using congrArg (Option.bind · id) found
      · -- A file that had no entry has none that holds a list.
        have absent : (Json.settled clean).find? file = none := by
          apply Option.eq_none_iff_forall_not_mem.2
          intro value found
          obtain ⟨entry, inside, named, _⟩ := Json.exists_of_find?_settled found
          exact known ⟨entry, inside, named⟩
        rw [absent, Option.bind_none, Option.bind_eq_none_iff]
        intro value found
        obtain ⟨entry, inside, named, rfl⟩ := Json.exists_of_find?_settled found
        rcases strewn.cases_of_mem inside with further | ⟨before, insideToo, became⟩
        · rw [Symbol.ofRecords?, Json.items?_settle, further.2]
          rfl
        · exact absurd ⟨before, insideToo, became.1.symm.trans named⟩ known

/-- The names of the members of a written baseline. -/
def memberNames : List String :=
  ["createdAt", "projectRoot", "schemaVersion", "symbols", "updatedAt"]

/-- A document with further members whose names mean nothing, and with damaged files. -/
inductive Damaged : Json → Json → Prop where
  | object {clean damaged} :
      Strewn (fun member => ∀ name ∈ memberNames, member.1 ≠ some name)
        (fun member changed => changed.1 = member.1 ∧
          (changed.2 = member.2 ∨ member.1 = some "symbols" ∧ Symbol.DamagedFiles member.2 changed.2))
        clean damaged →
      Damaged (.object clean) (.object damaged)

theorem restore?_congr {json other : Json}
    (texts : ∀ name ∈ memberNames, name ≠ "symbols" → json.member? name = other.member? name)
    (symbols : (json.member? "symbols").bind ofFiles? = (other.member? "symbols").bind ofFiles?) :
    restore? json = restore? other := by
  have restored : ∀ json : Json, restore? json =
      ((json.member? "symbols").bind ofFiles?).map fun symbols =>
        { createdAt := memberText json "createdAt"
          projectRoot := memberText json "projectRoot"
          schemaVersion := if memberText json "schemaVersion" = "" then SourceBaseline.schemaVersion
            else memberText json "schemaVersion"
          symbols
          updatedAt := memberText json "updatedAt" } := by
    intro json
    rw [restore?]
    cases json.member? "symbols" with
    | none => rfl
    | some files =>
        change (files.members?.bind _) = ((files.members?.map soundSymbols).map _)
        cases files.members? <;> rfl
  rw [restored, restored, symbols]
  have same : ∀ name ∈ memberNames, name ≠ "symbols" → memberText json name = memberText other name := by
    intro name known apart
    rw [memberText, memberText, texts name known apart]
  rw [same "createdAt" (by decide) (by decide), same "projectRoot" (by decide) (by decide),
    same "schemaVersion" (by decide) (by decide), same "updatedAt" (by decide) (by decide)]

/-- Damage takes nothing away from what is restored, and adds nothing to it. -/
theorem restore?_of_damaged {clean damaged : Json} (isDamaged : Damaged clean damaged) :
    restore? damaged.settle = restore? clean.settle := by
  cases isDamaged with
  | @object clean damaged strewn =>
      apply restore?_congr
      · intro name known other
        rw [Json.member?_settle, Json.member?_settle]
        apply Json.find?_settled_eq strewn (fun member unknown => unknown name known)
          fun member changed became => became.1
        intro member changed became named
        refine became.2.resolve_right ?_
        rintro ⟨files, _⟩
        exact other (Option.some.inj (named.symm.trans files))
      · rw [Json.member?_settle, Json.member?_settle]
        have found := Json.map_find?_settled ofFiles? "symbols" strewn
          (fun member unknown => unknown "symbols" (by decide))
          (fun member changed became => became.1) fun member changed became _ => by
            rcases became.2 with same | ⟨_, filesDamaged⟩
            · rw [same]
            · exact ofFiles?_of_damagedFiles filesDamaged
        simpa [Option.bind_map] using congrArg (Option.bind · id) found

section Load

variable {baseline : SymbolBaseline} {json : Json} {text : String}

theorem ofText?_of_damaged (versioned : baseline.schemaVersion ≠ "")
    (damaged : Damaged baseline.toJson json) (parsed : Json.parse? text = some json) :
    ofText? text = if json.isSound Json.depthLimit then some baseline else none := by
  have orderly : Json.Orderly Json.depthLimit baseline.toJson := baseline.orderly_toJson
  rw [ofText?, Json.parseSound?, parsed, Option.filter_some]
  split
  next =>
    rw [Option.bind_some, restore?_of_damaged damaged, Json.settle_of_orderly orderly]
    exact restore?_toJson versioned
  next => rfl

theorem load_of_text {disk : Disk} {route : Route} {age : Nat}
    (stands : disk.inspect route = .ok (.file text.toUTF8 age)) :
    load disk route = .ok (ofText? text) := by
  rw [load_of_file stands, loadedAs, fromUTF8?_toUTF8]

theorem load_of_clean (versioned : baseline.schemaVersion ≠ "") {disk : Disk} {route : Route}
    {age : Nat} (stands : disk.inspect route = .ok (.file (Document.bytes baseline) age)) :
    load disk route = .ok (some baseline) := by
  rw [load_of_text stands]
  exact congrArg _ (ofText?_documentText versioned)

/-- A damaged document loads as the baseline that the clean one loads as, provided that every part of
it has a meaning. If one has none, the whole baseline is lost. -/
theorem load_of_damaged (versioned : baseline.schemaVersion ≠ "")
    (damaged : Damaged baseline.toJson json) (parsed : Json.parse? text = some json)
    {cleanDisk disk : Disk} {cleanRoute route : Route} {cleanAge age : Nat}
    (cleanStands : cleanDisk.inspect cleanRoute = .ok (.file (Document.bytes baseline) cleanAge))
    (stands : disk.inspect route = .ok (.file text.toUTF8 age)) :
    load cleanDisk cleanRoute = .ok (some baseline) ∧
      load disk route = if json.isSound Json.depthLimit then load cleanDisk cleanRoute
        else .ok none := by
  have clean := load_of_clean versioned cleanStands
  refine ⟨clean, ?_⟩
  rw [load_of_text stands, ofText?_of_damaged versioned damaged parsed, clean]
  split <;> rfl

end Load

/-- A baseline with one symbol. -/
def single : SymbolBaseline :=
  ⟨"", "", "1.0", .ofList [("a", [⟨0, none, none, "a", .function, 1, "one", none⟩])], ""⟩

/-- Its document, with a member for no use, a file without a list, an element before the symbol, and a
member for no use in the symbol. -/
def spoilt (element : Json) : Json :=
  .object [
    (some "note", .null),
    (some "createdAt", .ofString ""),
    (some "projectRoot", .ofString ""),
    (some "schemaVersion", .ofString "1.0"),
    (some "symbols", .object [
      (some "b", .ofString "lost"),
      (some "a", .array [element, .object [
        (some "column", .ofNat 0),
        (some "file", .ofString "a"),
        (some "kind", .ofString "function"),
        (some "line", .ofNat 1),
        (some "name", .ofString "one"),
        (some "mark", .array [])]])]),
    (some "updatedAt", .ofString "")]

def spoiltText (element : String) : String :=
  "\x7b\"note\":null,\"createdAt\":\"\",\"projectRoot\":\"\",\"schemaVersion\":\"1.0\"," ++
  "\"symbols\":\x7b\"b\":\"lost\",\"a\":[" ++ element ++
  ",\x7b\"column\":0,\"file\":\"a\",\"kind\":\"function\",\"line\":1,\"name\":\"one\"," ++
  "\"mark\":[]\x7d]\x7d,\"updatedAt\":\"\"\x7d"

theorem damaged_spoilt {element : Json} (broken : Symbol.decode? element.settle = none) :
    Damaged single.toJson (spoilt element) := by
  have padded : Symbol.Padded
      (Symbol.toJson ⟨0, none, none, "a", .function, 1, "one", none⟩)
      (.object [
        (some "column", .ofNat 0),
        (some "file", .ofString "a"),
        (some "kind", .ofString "function"),
        (some "line", .ofNat 1),
        (some "name", .ofString "one"),
        (some "mark", .array [])]) :=
    .object (.kept rfl (.kept rfl (.kept rfl (.kept rfl (.kept rfl (.added (by decide) .nil))))))
  have records := Symbol.DamagedList.array (.added broken (.kept padded .nil))
  refine .object (.added (by decide) (.kept ⟨rfl, .inl rfl⟩ (.kept ⟨rfl, .inl rfl⟩
    (.kept ⟨rfl, .inl rfl⟩ (.kept ⟨rfl, .inr ⟨rfl, ?_⟩⟩ (.kept ⟨rfl, .inl rfl⟩ .nil))))))
  exact .object (.added ⟨by decide, rfl⟩ (.kept ⟨rfl, records⟩ .nil))

/-- A project with this content in the file of its symbol baseline. -/
def projectWith (content : ByteArray) : Disk :=
  Engine.memoryDisk "symbol-baseline.json" (.file content 0)

def symbolPlace : Location :=
  Engine.plainMemory ++ ["symbol-baseline.json"]

theorem inspect_projectWith (content : ByteArray) :
    (projectWith content).inspect (Location.route symbolPlace) = .ok (.file content 0) := by
  have stands : (projectWith content).find? symbolPlace = some (.file content 0) := by
    unfold projectWith Engine.memoryDisk
    exact (Disk.find?_put (by decide +kernel) (by decide +kernel) _).trans (if_pos rfl)
  exact Disk.inspect_of_stands (by decide +kernel) stands rfl ⟨by decide +kernel, by decide +kernel⟩

/-- A number in place of a record is left out, and the symbol behind it is loaded. -/
theorem load_of_damaged_spoilt :
    single.schemaVersion ≠ "" ∧ Damaged single.toJson (spoilt (.ofNat 7)) ∧
      Json.parse? (spoiltText "7") = some (spoilt (.ofNat 7)) ∧
      (projectWith (Document.bytes single)).inspect (Location.route symbolPlace) =
        .ok (.file (Document.bytes single) 0) ∧
      (projectWith (spoiltText "7").toUTF8).inspect (Location.route symbolPlace) =
        .ok (.file (spoiltText "7").toUTF8 0) ∧
      load (projectWith (spoiltText "7").toUTF8) (Location.route symbolPlace) = .ok (some single) := by
  have versioned : single.schemaVersion ≠ "" := by decide
  have damaged : Damaged single.toJson (spoilt (.ofNat 7)) := damaged_spoilt rfl
  have parsed : Json.parse? (spoiltText "7") = some (spoilt (.ofNat 7)) := by
    unfold Json.parse? spoiltText
    simp only [String.toList_append, String.reduceToList]
    rfl
  have loaded := load_of_damaged versioned damaged parsed (inspect_projectWith _)
    (inspect_projectWith _)
  refine ⟨versioned, damaged, parsed, inspect_projectWith _, inspect_projectWith _, ?_⟩
  rw [loaded.2, loaded.1]
  rfl

/-- A record with a number out of range is no symbol either, but every symbol is lost with it. -/
theorem load_loses_baseline :
    let element := Json.object [(some "line", .number (.decimal false 1 999))]
    let text := spoiltText "\x7b\"line\":1e999\x7d"
    Symbol.decode? element.settle = none ∧ Damaged single.toJson (spoilt element) ∧
      Json.parse? text = some (spoilt element) ∧
      load (projectWith (Document.bytes single)) (Location.route symbolPlace) = .ok (some single) ∧
      load (projectWith text.toUTF8) (Location.route symbolPlace) = .ok none := by
  intro element text
  have broken : Symbol.decode? element.settle = none := by decide +kernel
  have parsed : Json.parse? (spoiltText "\x7b\"line\":1e999\x7d") = some (spoilt element) := by
    unfold Json.parse? spoiltText
    simp only [String.toList_append, String.reduceToList]
    rfl
  refine ⟨broken, damaged_spoilt broken, parsed, ?_, ?_⟩
  · rw [load_of_clean (by decide) (inspect_projectWith _)]
  · rw [load_of_text (inspect_projectWith _),
      ofText?_of_damaged (by decide) (damaged_spoilt broken) parsed]
    rfl

end SymbolBaseline

end SourceBaseline
