/-!
# TOML values

Settings are written in the part of TOML that they need: strings, integers, arrays and tables. A
table remembers how it came about, because that decides whether it may be extended: a header opens
a table once, a dotted key extends only tables that dotted keys made, and an inline table is
complete where it stands.
-/

set_option autoImplicit false

namespace SourceBaseline

/-- How a table came about: by its own header, as a step of the path in another header, as a step
of a dotted key, or inline, where dotted keys make further tables. -/
inductive TableOrigin where
  | header
  | headerPath
  | dottedKey
  | inline
  | inlineKey
  deriving DecidableEq, Inhabited

/-- A value. The entries of a table stand in the order in which they were written. -/
inductive Toml where
  | string (text : String)
  | integer (value : Int)
  | array (items : List Toml)
  | table (origin : TableOrigin) (entries : List (String × Toml))
  deriving Inhabited

abbrev TomlEntries := List (String × Toml)

structure TomlSetting where
  path : List String
  key : String
  value : Toml
  deriving Inhabited

/-- A header, where there is one, and the settings up to the next header. -/
structure TomlSection where
  header : Option (List String × String)
  settings : List TomlSetting
  deriving Inhabited

/-- What a kind of path may do: the tables it creates, the tables it may enter, and the tables it
may end in. -/
structure TomlAccess where
  creates : TableOrigin
  enters : TableOrigin → Bool
  endsIn : TableOrigin → Bool

namespace TomlAccess

def header : TomlAccess where
  creates := .headerPath
  enters origin := origin = .header || origin = .headerPath || origin = .dottedKey
  endsIn _ := true

def dottedKey : TomlAccess where
  creates := .dottedKey
  enters origin := origin = .headerPath || origin = .dottedKey
  endsIn origin := origin = .dottedKey

def inlineKey : TomlAccess where
  creates := .inlineKey
  enters origin := origin = .inlineKey
  endsIn _ := true

end TomlAccess

namespace TomlEntries

def replace (entries : TomlEntries) (key : String) (value : Toml) : TomlEntries :=
  entries.map fun entry => if entry.1 = key then (key, value) else entry

def without (entries : TomlEntries) (key : String) : TomlEntries :=
  entries.filter (·.1 ≠ key)

/-- Change the entries of the table that a path leads to. -/
def changeAt? (access : TomlAccess) (change : TomlEntries → Option TomlEntries) :
    List String → TomlEntries → Option TomlEntries
  | [], entries => change entries
  | key :: path, entries =>
      match entries.lookup key with
      | none =>
          (changeAt? access change path []).map fun inner =>
            entries ++ [(key, .table access.creates inner)]
      | some (.table origin inner) =>
          if access.enters origin && (path ≠ [] || access.endsIn origin) then
            (changeAt? access change path inner).map fun changed =>
              replace entries key (.table origin changed)
          else none
      | some _ => none

def addFresh? (key : String) (value : Toml) (entries : TomlEntries) : Option TomlEntries :=
  if (entries.lookup key).isSome then none else some (entries ++ [(key, value)])

def addSetting? (access : TomlAccess) (entries : TomlEntries) (setting : TomlSetting) :
    Option TomlEntries :=
  changeAt? access (addFresh? setting.key setting.value) setting.path entries

/-- The entries with which a header starts a table: none, or those of a table that only the paths
of other headers made. -/
def headerStart? (key : String) (entries : TomlEntries) : Option TomlEntries :=
  match entries.lookup key with
  | none => some []
  | some (.table .headerPath inner) => some inner
  | some _ => none

def addTable? (key : String) (settings : List TomlSetting) (entries : TomlEntries) :
    Option TomlEntries := do
  let start ← headerStart? key entries
  let filled ← settings.foldlM (addSetting? .dottedKey) start
  pure (without entries key ++ [(key, .table .header filled)])

def addSection? (entries : TomlEntries) (part : TomlSection) : Option TomlEntries :=
  match part.header with
  | none => part.settings.foldlM (addSetting? .dottedKey) entries
  | some (path, key) => changeAt? .header (addTable? key part.settings) path entries

def ofSections? (sections : List TomlSection) : Option TomlEntries :=
  sections.foldlM addSection? []

def ofInline? (settings : List TomlSetting) : Option TomlEntries :=
  settings.foldlM (addSetting? .inlineKey) []

end TomlEntries

end SourceBaseline
