import SourceBaseline.Baseline.Symbols
import SourceBaseline.Proofs.Json.RoundTrip

/-!
# Documents give their baselines back

Each record is written as an orderly value with its members in name order, and its decoder finds
every field again: what is written as null or left out is missing when it is read. So the text of a
document gives back the baseline that it was written from.
-/

set_option autoImplicit false

namespace SourceBaseline

namespace Json

/-! ## Members of an orderly object -/

section Members

variable {members : List (String × Json)} {names : List String}

theorem sorted_of_names (sorted : names.Pairwise (· < ·))
    (among : (members.map Prod.fst).Sublist names) :
    members.Pairwise fun left right => left.1 < right.1 :=
  List.pairwise_map.1 (sorted.sublist among)

theorem filter_eq_lookup (sorted : members.Pairwise fun left right => left.1 < right.1)
    (name : String) :
    members.filter (·.1 = name) = ((members.lookup name).map fun value => (name, value)).toList := by
  induction members with
  | nil => rfl
  | cons head rest ih =>
      obtain ⟨first, later⟩ := List.pairwise_cons.1 sorted
      obtain ⟨other, value⟩ := head
      rw [List.lookup_cons]
      by_cases same : other = name
      · subst same
        have alone : rest.filter (·.1 = other) = [] := by
          rw [List.filter_eq_nil_iff]
          intro member inside
          have less : other < member.1 := first member inside
          simpa using fun same => String.lt_irrefl _ (same ▸ less)
        simp [alone]
      · have different : (name == other) = false := beq_eq_false_iff_ne.2 (Ne.symm same)
        simp [same, different, ih later]

theorem fields?_ofMembers (sorted : members.Pairwise fun left right => left.1 < right.1)
    (names : List String) (least : Nat) :
    fields? names least (ofMembers members) = some (names.map fun name => members.lookup name) := by
  have field : ∀ name, field? (members.map fun member => (some member.1, member.2)) name =
      some (members.lookup name) := by
    intro name
    have found := filter_eq_lookup sorted name
    rw [field?, List.filter_map]
    simp only [Function.comp_def, Option.some.injEq, found]
    cases members.lookup name <;> rfl
  have whole : (members.map fun member => (some member.1, member.2)).any (·.1.isNone) = false := by
    simp
  rw [ofMembers, fields?, if_neg (by simp [whole])]
  induction names with
  | nil => rfl
  | cons name rest ih =>
      rw [List.mapM_cons, field, ih]
      rfl

theorem member?_ofMembers (sorted : members.Pairwise fun left right => left.1 < right.1)
    (name : String) : member? name (ofMembers members) = members.lookup name := by
  rw [ofMembers, member?, ← List.head?_filter, List.filter_reverse, List.filter_map]
  simp only [Function.comp_def, Option.some.injEq, filter_eq_lookup sorted name]
  cases members.lookup name <;> rfl

theorem members?_ofMembers (members : List (String × Json)) :
    members? (ofMembers members) = some members := by
  rw [ofMembers, members?, List.mapM_map]
  induction members with
  | nil => rfl
  | cons member rest ih =>
      rw [List.mapM_cons, ih]
      rfl

end Members

/-! ## Fields -/

@[simp] theorem optional_text?_map (text : Option String) :
    optional text? (text.map ofString) = some text := by
  cases text <;> rfl

@[simp] theorem optional_text?_ofString? (text : Option String) :
    optional text? (some (ofString? text)) = some text := by
  cases text <;> rfl

@[simp] theorem text?_ofString (text : String) : text? (ofString text) = some text :=
  rfl

@[simp] theorem required_some {α : Type} (decode : Json → Option α) (json : Json) :
    required decode (some json) = decode json :=
  rfl

@[simp] theorem withDefault_some {α : Type} (missing : α) (decode : Json → Option α) (json : Json) :
    withDefault missing decode (some json) = decode json :=
  rfl

theorem filterMap_map_eq {α β : Type} {encode : α → β} {decode : β → Option α}
    (decodes : ∀ value, decode (encode value) = some value) (values : List α) :
    (values.map encode).filterMap decode = values := by
  have same : decode ∘ encode = some := funext decodes
  rw [List.filterMap_map, same, List.filterMap_some]

theorem mapM_map_eq_some {α β : Type} {encode : α → β} {decode : β → Option α}
    (decodes : ∀ value, decode (encode value) = some value) (values : List α) :
    (values.map encode).mapM decode = some values := by
  rw [List.mapM_map]
  induction values with
  | nil => rfl
  | cons value rest ih =>
      rw [List.mapM_cons, ih]
      simp [decodes]

theorem map?_ofMembers {α : Type} {decode : Json → Option α} {encode : α → Json}
    (decodes : ∀ value, decode (encode value) = some value) (map : SortedMap String α) :
    map? decode (ofMembers (map.entries.map fun (name, value) => (name, encode value))) =
      some map := by
  rw [map?, members?_ofMembers]
  simp only [Option.bind_eq_bind, Option.bind_some]
  rw [mapM_map_eq_some fun entry => by simp [decodes], Option.bind_some, SortedMap.ofList_entries]
  rfl

theorem orderly_ofString? {depth : Nat} (text : Option String) : Orderly depth (ofString? text) := by
  cases text with
  | none => exact .null
  | some text => exact .string

theorem orderly_ofMembers_map {α : Type} {depth : Nat} (encode : α → Json)
    (map : SortedMap String α) (orderly : ∀ value ∈ map.values, Orderly depth (encode value)) :
    Orderly (depth + 1) (ofMembers (map.entries.map fun (name, value) => (name, encode value))) := by
  apply Orderly.object
  · exact List.pairwise_map.2 map.sorted
  · intro member inside
    obtain ⟨entry, here, rfl⟩ := List.mem_map.1 inside
    exact orderly entry.2 (List.mem_map_of_mem here)

end Json

namespace Symbol

@[simp] theorem decodeCount?_ofNat (count : UInt32) : decodeCount? (.ofNat count.toNat) = some count := by
  have fits : count.toNat < UInt32.size := count.toNat_lt
  simp [decodeCount?, Json.ofNat, Json.natBelow?, fits]

theorem decode?_text (kind : SymbolKind) : SymbolKind.decode? (.ofString kind.text) = some kind := by
  cases kind <;> decide

theorem lookup_optionalMember (name other : String) (text : Option String) :
    (optionalMember name text).lookup other =
      if other = name then text.map Json.ofString else none := by
  cases text with
  | none => simp [optionalMember]
  | some text =>
      by_cases same : other = name
      · simp [optionalMember, same]
      · have different : (other == name) = false := beq_eq_false_iff_ne.2 same
        simp [optionalMember, List.lookup_cons, same, different]

/-- The members of a written symbol. -/
def members (symbol : Symbol) : List (String × Json) :=
  [("column", .ofNat symbol.column.toNat)] ++
    optionalMember "doc" symbol.doc ++
    optionalMember "enclosing" symbol.enclosing ++
    [("file", .ofString symbol.file),
     ("kind", .ofString symbol.kind.text),
     ("line", .ofNat symbol.line.toNat),
     ("name", .ofString symbol.name)] ++
    optionalMember "signature" symbol.signature

theorem names_optionalMember (name : String) (text : Option String) :
    ((optionalMember name text).map Prod.fst).Sublist [name] := by
  cases text <;> simp [optionalMember]

theorem sorted_members (symbol : Symbol) :
    symbol.members.Pairwise fun left right => left.1 < right.1 := by
  have names : List.Pairwise (· < ·)
      (["column"] ++ ["doc"] ++ ["enclosing"] ++ ["file", "kind", "line", "name"] ++ ["signature"]) := by
    decide
  apply Json.sorted_of_names names
  simp only [members, List.map_append]
  exact (((((List.Sublist.refl _).append (names_optionalMember _ _)).append
    (names_optionalMember _ _)).append (.refl _)).append (names_optionalMember _ _))

theorem decode?_toJson (symbol : Symbol) : decode? symbol.toJson = some symbol := by
  have fields : symbol.toJson.fields?
      ["column", "doc", "enclosing", "file", "kind", "line", "name", "signature"] 7 =
      some [
        some (.ofNat symbol.column.toNat),
        symbol.doc.map .ofString,
        symbol.enclosing.map .ofString,
        some (.ofString symbol.file),
        some (.ofString symbol.kind.text),
        some (.ofNat symbol.line.toNat),
        some (.ofString symbol.name),
        symbol.signature.map .ofString] := by
    change (Json.ofMembers symbol.members).fields? _ _ = _
    rw [Json.fields?_ofMembers symbol.sorted_members]
    simp [members, List.lookup_append, lookup_optionalMember, List.lookup_cons]
  rw [decode?, fields]
  simp [decode?_text]

theorem orderly_toJson {depth : Nat} (symbol : Symbol) : Json.Orderly (depth + 1) symbol.toJson := by
  have count : ∀ value : UInt32, Json.Orderly depth (.ofNat value.toNat) := by
    intro value
    have fits : value.toNat < UInt32.size := value.toNat_lt
    exact .number (by rw [JsonNumber.significandLimit]; simp [UInt32.size] at fits ⊢; omega)
  have optional : ∀ name (text : Option String), ∀ member ∈ optionalMember name text,
      Json.Orderly depth member.2 := by
    intro name text member inside
    obtain ⟨value, _, rfl⟩ := List.mem_map.1 inside
    exact .string
  change Json.Orderly (depth + 1) (.ofMembers symbol.members)
  refine .object symbol.sorted_members ?_
  intro member inside
  simp only [members, List.mem_append, List.mem_cons, List.not_mem_nil, or_false] at inside
  rcases inside with (((rfl | found) | found) | rfl | rfl | rfl | rfl) | found
  · exact count _
  · exact optional _ _ _ found
  · exact optional _ _ _ found
  · exact .string
  · exact .string
  · exact count _
  · exact .string
  · exact optional _ _ _ found

end Symbol

namespace GitMetadata

theorem decode?_toJson (metadata : GitMetadata) : decode? metadata.toJson = some metadata := by
  have sorted : List.Pairwise (· < ·) ["branch", "commit"] := by decide
  rw [decode?, toJson, Json.fields?_ofMembers (Json.sorted_of_names sorted (.refl _))]
  simp [List.lookup_cons]

theorem orderly_toJson {depth : Nat} (metadata : GitMetadata) :
    Json.Orderly (depth + 1) metadata.toJson := by
  have sorted : List.Pairwise (· < ·) ["branch", "commit"] := by decide
  refine .object (Json.sorted_of_names sorted (.refl _)) ?_
  simp [Json.orderly_ofString?]

end GitMetadata

theorem parseSound?_documentText {json : Json} (orderly : Json.Orderly Json.depthLimit json) :
    Json.parseSound? (documentText json) = some json := by
  rw [documentText, Json.parseSound?, Json.parse?_pretty orderly, Option.filter_some,
    if_pos (Json.isSound_of_orderly orderly)]

namespace ChecksumBaseline

variable {baseline : ChecksumBaseline}

/-- The members of a written baseline. -/
def members (baseline : ChecksumBaseline) : List (String × Json) := [
  ("createdAt", .ofString baseline.createdAt),
  ("description", .ofString baseline.description),
  ("detectedLanguage", .ofString baseline.detectedLanguage),
  ("docsExist", .boolean baseline.docsExist),
  ("docsPath", .ofString? baseline.docsPath),
  ("fileCount", .ofNat baseline.fileCount),
  ("files", .ofMembers (baseline.files.entries.map fun (file, hash) => (file, .ofString hash))),
  ("repoName", .ofString baseline.repoName),
  ("schemaVersion", .ofString baseline.schemaVersion),
  ("timestamp", .ofString baseline.timestamp),
  ("vcsMetadata", (baseline.gitMetadata.map GitMetadata.toJson).getD .null)]

theorem sorted_members (baseline : ChecksumBaseline) :
    baseline.members.Pairwise fun left right => left.1 < right.1 := by
  have sorted : memberNames.Pairwise (· < ·) := by decide
  exact Json.sorted_of_names sorted (.refl _)

theorem decode?_toJson (fits : baseline.fileCount < countBound) :
    decode? baseline.toJson = some baseline := by
  have metadata : Json.optional GitMetadata.decode?
      (some ((baseline.gitMetadata.map GitMetadata.toJson).getD .null)) = some baseline.gitMetadata := by
    cases baseline.gitMetadata with
    | none => rfl
    | some metadata =>
        change (GitMetadata.decode? metadata.toJson).map some = some (some metadata)
        rw [metadata.decode?_toJson]
        rfl
  have files := Json.map?_ofMembers Json.text?_ofString baseline.files
  have count : Json.natBelow? countBound (.ofNat baseline.fileCount) = some baseline.fileCount := by
    simp [Json.natBelow?, Json.ofNat, fits]
  change decode? (.ofMembers baseline.members) = some baseline
  rw [decode?, Json.fields?_ofMembers baseline.sorted_members]
  simp [memberNames, members, List.lookup_cons, files, metadata, count, Json.boolean?]

theorem orderly_toJson {depth : Nat} (fits : baseline.fileCount < countBound) :
    Json.Orderly (depth + 2) baseline.toJson := by
  change Json.Orderly (depth + 2) (.ofMembers baseline.members)
  refine .object baseline.sorted_members ?_
  have count : Json.Orderly (depth + 1) (.ofNat baseline.fileCount) :=
    .number (Nat.le_sub_one_of_lt fits)
  have files : Json.Orderly (depth + 1)
      (.ofMembers (baseline.files.entries.map fun (file, hash) => (file, .ofString hash))) :=
    Json.orderly_ofMembers_map Json.ofString baseline.files fun _ _ => .string
  have metadata : Json.Orderly (depth + 1)
      ((baseline.gitMetadata.map GitMetadata.toJson).getD .null) := by
    cases baseline.gitMetadata with
    | none => exact .null
    | some metadata => exact metadata.orderly_toJson
  simp [members, count, files, metadata, Json.orderly_ofString?, Json.Orderly.string,
    Json.Orderly.boolean]

/-- A checksum baseline is what the text of its document says. -/
theorem ofText?_documentText (fits : baseline.fileCount < countBound) :
    ofText? (documentText baseline.toJson) = some baseline := by
  have orderly : Json.Orderly 2 baseline.toJson := orderly_toJson fits
  rw [ofText?, documentText, Json.parse?_pretty orderly]
  exact decode?_toJson fits

theorem recordedCreation?_documentText (fits : baseline.fileCount < countBound) :
    recordedCreation? (documentText baseline.toJson) = some baseline.createdAt := by
  have orderly : Json.Orderly Json.depthLimit baseline.toJson := orderly_toJson fits
  have recorded : (Json.ofMembers baseline.members).member? "createdAt" =
      some (.ofString baseline.createdAt) := by
    rw [Json.member?_ofMembers baseline.sorted_members]
    rfl
  rw [recordedCreation?, parseSound?_documentText orderly, Option.bind_some]
  exact (congrArg (Option.bind · Json.text?) recorded).trans (Json.text?_ofString _)

end ChecksumBaseline

namespace SymbolBaseline

variable {baseline : SymbolBaseline}

/-- The members of a written baseline. -/
def members (baseline : SymbolBaseline) : List (String × Json) := [
  ("createdAt", .ofString baseline.createdAt),
  ("projectRoot", .ofString baseline.projectRoot),
  ("schemaVersion", .ofString baseline.schemaVersion),
  ("symbols", Symbol.mapToJson baseline.symbols),
  ("updatedAt", .ofString baseline.updatedAt)]

theorem sorted_members (baseline : SymbolBaseline) :
    baseline.members.Pairwise fun left right => left.1 < right.1 := by
  have sorted : ["createdAt", "projectRoot", "schemaVersion", "symbols", "updatedAt"].Pairwise
      (· < ·) := by decide
  exact Json.sorted_of_names sorted (.refl _)

/-- No record of written symbols is left out when they are read. -/
theorem soundSymbols_eq (symbols : SymbolMap) :
    soundSymbols (symbols.entries.map fun (file, found) => (file, .array (found.map Symbol.toJson))) =
      symbols := by
  have records := Json.filterMap_map_eq Symbol.decode?_toJson
  rw [soundSymbols, Json.filterMap_map_eq fun entry => by simp [Json.items?, records]]
  exact SortedMap.ofList_entries symbols

theorem restore?_toJson (versioned : baseline.schemaVersion ≠ "") :
    restore? baseline.toJson = some baseline := by
  change restore? (.ofMembers baseline.members) = some baseline
  simp only [restore?, memberText, Json.member?_ofMembers baseline.sorted_members]
  simp [members, List.lookup_cons, Symbol.mapToJson, Json.members?_ofMembers, soundSymbols_eq,
    versioned]

theorem orderly_toJson {depth : Nat} (baseline : SymbolBaseline) :
    Json.Orderly (depth + 4) baseline.toJson := by
  change Json.Orderly (depth + 4) (.ofMembers baseline.members)
  refine .object baseline.sorted_members ?_
  have symbols : Json.Orderly (depth + 3) (Symbol.mapToJson baseline.symbols) := by
    refine Json.orderly_ofMembers_map (fun found : List Symbol => .array (found.map Symbol.toJson))
      baseline.symbols ?_
    intro found _
    refine .array ?_
    intro json member
    obtain ⟨symbol, _, rfl⟩ := List.mem_map.1 member
    exact symbol.orderly_toJson
  simp [members, symbols, Json.Orderly.string]

/-- A symbol baseline that names its version is what the text of its document says. -/
theorem ofText?_documentText (versioned : baseline.schemaVersion ≠ "") :
    ofText? (documentText baseline.toJson) = some baseline := by
  have orderly : Json.Orderly Json.depthLimit baseline.toJson := baseline.orderly_toJson
  rw [ofText?, parseSound?_documentText orderly, Option.bind_some, Json.settle_of_orderly orderly]
  exact restore?_toJson versioned

theorem recordedCreation?_documentText (baseline : SymbolBaseline) :
    recordedCreation? (documentText baseline.toJson) = some baseline.createdAt := by
  have orderly : Json.Orderly Json.depthLimit baseline.toJson := baseline.orderly_toJson
  have recorded : (Json.ofMembers baseline.members).member? "createdAt" =
      some (.ofString baseline.createdAt) := by
    rw [Json.member?_ofMembers baseline.sorted_members]
    rfl
  rw [recordedCreation?, parseSound?_documentText orderly, Option.bind_some]
  exact (congrArg (Option.bind · Json.text?) recorded).trans (Json.text?_ofString _)

end SymbolBaseline

end SourceBaseline
