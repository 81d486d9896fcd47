import SourceBaseline.SortedMap

/-!
# JSON values

A value keeps what its text says: members in order with repeated names, and numbers with their
exponent. `isSound` tells whether every part of a value can be used, and `settle` gives each object
one member per name, in name order, where the last of several wins.
-/

set_option autoImplicit false

namespace SourceBaseline

/-- A JSON number. `natural` is one without sign, fraction and exponent that fits into 64 bits; any
other is its significant digits times a power of ten. -/
inductive JsonNumber where
  | natural (value : Nat)
  | decimal (negative : Bool) (significand : Nat) (exponent : Int)
  deriving DecidableEq, Inhabited

namespace JsonNumber

def significandLimit : Nat := Nat.pow 2 64 - 1

/-- The greatest power of ten that a binary number of 64 bits can hold. -/
def exponentLimit : Nat := 308

/-- The least magnitude that is rounded to one outside the range of binary numbers of 64 bits. -/
def doubleBound : Nat := Nat.pow 2 1024 - Nat.pow 2 970

/-- A value in units of a power of two, rounded to a whole number of them, half units to the even
neighbour. -/
def roundToUnits (value unit : Nat) : Nat :=
  let units := value / unit
  let rest := 2 * (value % unit)
  if rest < unit ∨ (rest = unit ∧ units % 2 = 0) then units else units + 1

def roundToDouble (value : Nat) : Nat :=
  let unit := Nat.pow 2 (value.log2 - 52)
  unit * roundToUnits value unit

/-- Whether the number lies within the range of binary numbers of 64 bits. The significand and the
power of ten are rounded before they are multiplied. -/
def isFinite : JsonNumber → Bool
  | .natural _ => true
  | .decimal _ 0 _ => true
  | .decimal _ _ (.negSucc _) => true
  | .decimal _ significand (.ofNat exponent) =>
      exponent ≤ exponentLimit &&
        roundToDouble significand * roundToDouble (Nat.pow 10 exponent) < doubleBound

end JsonNumber

/-- A JSON value. The text of a string is missing if an escape in it names half of a pair of
surrogates, so that it stands for no text. -/
inductive Json where
  | null
  | boolean (value : Bool)
  | number (value : JsonNumber)
  | string (text : Option String)
  | array (items : List Json)
  | object (members : List (Option String × Json))
  deriving Inhabited

namespace Json

def ofString (text : String) : Json := .string (some text)

def ofNat (value : Nat) : Json := .number (.natural value)

def ofMembers (members : List (String × Json)) : Json :=
  .object (members.map fun member => (some member.1, member.2))

def ofString? (text : Option String) : Json :=
  (text.map ofString).getD .null

def depthLimit : Nat := 127

mutual

/-- Whether every string stands for a text, every number is within range, and arrays and objects
are nested at most `depth` deep. -/
def isSound (depth : Nat) : Json → Bool
  | .null => true
  | .boolean _ => true
  | .number value => value.isFinite
  | .string text => text.isSome
  | .array items => depth ≠ 0 && areSound (depth - 1) items
  | .object members => depth ≠ 0 && membersAreSound (depth - 1) members

def areSound (depth : Nat) : List Json → Bool
  | [] => true
  | item :: rest => isSound depth item && areSound depth rest

def membersAreSound (depth : Nat) : List (Option String × Json) → Bool
  | [] => true
  | (name, value) :: rest => name.isSome && isSound depth value && membersAreSound depth rest

end

mutual

/-- The value with one member per name in each object, in name order; the last of several wins. -/
def settle : Json → Json
  | .array items => .array (settleItems items)
  | .object members => .object
      ((SortedMap.ofList (settleMembers members)).entries.map fun (name, value) =>
        (some name, value))
  | .null => .null
  | .boolean value => .boolean value
  | .number value => .number value
  | .string text => .string text

def settleItems : List Json → List Json
  | [] => []
  | item :: rest => settle item :: settleItems rest

def settleMembers : List (Option String × Json) → List (String × Json)
  | [] => []
  | (some name, value) :: rest => (name, settle value) :: settleMembers rest
  | (none, _) :: rest => settleMembers rest

end

/-- The last member of that name. -/
def member? (name : String) : Json → Option Json
  | .object members => (members.reverse.find? (·.1 = some name)).map Prod.snd
  | _ => none

def text? : Json → Option String
  | .string text => text
  | _ => none

def items? : Json → Option (List Json)
  | .array items => some items
  | _ => none

def members? : Json → Option (List (String × Json))
  | .object members => members.mapM fun (name, value) => name.map (·, value)
  | _ => none

end Json

end SourceBaseline
