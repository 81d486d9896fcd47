import SourceBaseline.Json

/-!
# Decoding records

A record is an object with known members, or an array of its fields in order. Members with other
names are ignored. A known name that stands twice, a name that stands for no text, and an array
that is too short or too long refuse the whole record.
-/

set_option autoImplicit false

namespace SourceBaseline.Json

/-- The field of that name in an object: none if it stands there twice, and a missing value if it
does not stand there. -/
def field? (members : List (Option String × Json)) (name : String) : Option (Option Json) :=
  match members.filter (·.1 = some name) with
  | [] => some none
  | [(_, value)] => some (some value)
  | _ => none

/-- The fields with the given names. An array has at least `least` of them. -/
def fields? (names : List String) (least : Nat) : Json → Option (List (Option Json))
  | .object members =>
      if members.any (·.1.isNone) then none else names.mapM (field? members)
  | .array items =>
      if least ≤ items.length ∧ items.length ≤ names.length then
        some (items.map some ++ List.replicate (names.length - items.length) none)
      else none
  | _ => none

def required {α : Type} (decode : Json → Option α) (field : Option Json) : Option α :=
  field.bind decode

def withDefault {α : Type} (missing : α) (decode : Json → Option α) : Option Json → Option α
  | none => some missing
  | some json => decode json

def optional {α : Type} (decode : Json → Option α) : Option Json → Option (Option α)
  | none => some none
  | some .null => some none
  | some json => (decode json).map some

def natBelow? (bound : Nat) : Json → Option Nat
  | .number (.natural value) => if value < bound then some value else none
  | _ => none

def boolean? : Json → Option Bool
  | .boolean value => some value
  | _ => none

/-- The name of one of several variants: a string, or an object with that one name and null. -/
def variant? : Json → Option String
  | .string text => text
  | .object [(some name, .null)] => some name
  | _ => none

/-- An object whose values are decoded one by one; the last of several with one name wins. -/
def map? {α : Type} (decode : Json → Option α) (json : Json) : Option (SortedMap String α) := do
  let members ← json.members?
  let entries ← members.mapM fun (name, value) => (decode value).map (name, ·)
  pure (.ofList entries)

def list? {α : Type} (decode : Json → Option α) (json : Json) : Option (List α) := do
  (← json.items?).mapM decode

end SourceBaseline.Json
