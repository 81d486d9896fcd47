import SourceBaseline.Json

/-!
# Reading JSON

`Json.parse?` reads a whole text by the grammar alone; whether the parts of the value can be used
is for `Json.isSound` and the decoders. Values nest, so the readers of values, items and members
call each other with a measure that each call lowers; the number of brackets and commas that could
end a value bounds it.
-/

set_option autoImplicit false

namespace SourceBaseline.Json

def isSpace (char : Char) : Bool :=
  char = ' ' || char = '\n' || char = '\t' || char = '\r'

def skipSpace (text : List Char) : List Char :=
  text.dropWhile isSpace

def hexValue? (char : Char) : Option Nat :=
  if '0' ≤ char ∧ char ≤ '9' then some (char.toNat - '0'.toNat)
  else if 'a' ≤ char ∧ char ≤ 'f' then some (char.toNat - 'a'.toNat + 10)
  else if 'A' ≤ char ∧ char ≤ 'F' then some (char.toNat - 'A'.toNat + 10)
  else none

def hexQuad? (first second third fourth : Char) : Option Nat := do
  let first ← hexValue? first
  let second ← hexValue? second
  let third ← hexValue? third
  let fourth ← hexValue? fourth
  pure (((first * 16 + second) * 16 + third) * 16 + fourth)

/-- The character that a letter after a backslash stands for. -/
def unescape? (letter : Char) : Option Char :=
  if letter = '"' ∨ letter = '\\' ∨ letter = '/' then some letter
  else if letter = 'b' then some (Char.ofNat 8)
  else if letter = 'f' then some (Char.ofNat 12)
  else if letter = 'n' then some '\n'
  else if letter = 'r' then some '\r'
  else if letter = 't' then some '\t'
  else none

/-- Read a string after its opening quote: the code units it is made of, and what follows it. -/
def readUnits? : List Char → Option (List Nat × List Char)
  | [] => none
  | '"' :: rest => some ([], rest)
  | '\\' :: 'u' :: first :: second :: third :: fourth :: rest =>
      (hexQuad? first second third fourth).bind fun unit =>
        (readUnits? rest).map fun (units, after) => (unit :: units, after)
  | '\\' :: letter :: rest =>
      (unescape? letter).bind fun char =>
        (readUnits? rest).map fun (units, after) => (char.toNat :: units, after)
  | char :: rest =>
      if char = '\\' ∨ char.toNat < 32 then none
      else (readUnits? rest).map fun (units, after) => (char.toNat :: units, after)

def isHighSurrogate (unit : Nat) : Bool := 0xD800 ≤ unit && unit < 0xDC00

def isLowSurrogate (unit : Nat) : Bool := 0xDC00 ≤ unit && unit < 0xE000

/-- Join pairs of surrogates; there is no text if half a pair stands alone. -/
def joinUnits? : List Nat → Option (List Char)
  | [] => some []
  | [unit] =>
      if isHighSurrogate unit || isLowSurrogate unit then none else some [Char.ofNat unit]
  | unit :: next :: rest =>
      if isHighSurrogate unit then
        if isLowSurrogate next then
          (joinUnits? rest).map
            (Char.ofNat (0x10000 + (unit - 0xD800) * 1024 + (next - 0xDC00)) :: ·)
        else none
      else if isLowSurrogate unit then none
      else (joinUnits? (next :: rest)).map (Char.ofNat unit :: ·)

def readString? (text : List Char) : Option (Option String × List Char) :=
  (readUnits? text).map fun (units, rest) => ((joinUnits? units).map .ofList, rest)

def digitValue (digit : Char) : Nat :=
  digit.toNat - '0'.toNat

def digitsValue (digits : List Char) : Nat :=
  digits.foldl (fun value digit => value * 10 + digitValue digit) 0

/-- Put digits behind a significand until one does not fit: what it has become, and how many digits
are left over. -/
def appendDigits (significand : Nat) : List Char → Nat × Nat
  | [] => (significand, 0)
  | digit :: rest =>
      let longer := significand * 10 + digitValue digit
      if longer ≤ JsonNumber.significandLimit then appendDigits longer rest
      else (significand, rest.length + 1)

def spanDigits (text : List Char) : List Char × List Char :=
  (text.takeWhile Char.isDigit, text.dropWhile Char.isDigit)

def readFraction? (text : List Char) : Option (List Char × List Char) :=
  match text with
  | '.' :: rest =>
      match spanDigits rest with
      | ([], _) => none
      | found => some found
  | _ => some ([], text)

def readExponent? (text : List Char) : Option (Option Int × List Char) :=
  match text with
  | [] => some (none, text)
  | mark :: rest =>
      if mark = 'e' ∨ mark = 'E' then
        let (negative, digits) := match rest with
          | '-' :: digits => (true, digits)
          | '+' :: digits => (false, digits)
          | digits => (false, digits)
        match spanDigits digits with
        | ([], _) => none
        | (found, after) =>
            let value : Int := digitsValue found
            some (some (if negative then -value else value), after)
      else some (none, text)

/-- The number that a sign, the digits before and after the point, and an exponent write. Digits of
the whole part for which the significand has no room still count as powers of ten; digits of the
fraction for which it has none are dropped. -/
def numberOf (negative : Bool) (whole fraction : List Char) (exponent : Option Int) : JsonNumber :=
  let (head, left) := appendDigits 0 whole
  if ¬ negative ∧ fraction = [] ∧ exponent = none ∧ left = 0 then .natural head
  else
    let (significand, dropped) := appendDigits head fraction
    .decimal negative significand
      (exponent.getD 0 + (left : Int) - ((fraction.length - dropped : Nat) : Int))

def readUnsigned? (negative : Bool) (text : List Char) : Option (JsonNumber × List Char) := do
  let (whole, rest) := spanDigits text
  if whole = [] ∨ (whole.head? = some '0' ∧ whole ≠ ['0']) then none
  let (fraction, rest) ← readFraction? rest
  let (exponent, rest) ← readExponent? rest
  some (numberOf negative whole fraction exponent, rest)

def readNumber? (text : List Char) : Option (JsonNumber × List Char) :=
  match text with
  | '-' :: rest => readUnsigned? true rest
  | _ => readUnsigned? false text

def readWord? (word : String) (text : List Char) : Option (List Char) :=
  if word.toList.isPrefixOf text then some (text.drop word.length) else none

mutual

def readValue? : Nat → List Char → Option (Json × List Char)
  | 0, _ => none
  | fuel + 1, text =>
      match skipSpace text with
      | '"' :: rest => (readString? rest).map fun (found, after) => (.string found, after)
      | '[' :: rest =>
          match skipSpace rest with
          | ']' :: after => some (.array [], after)
          | inner => (readItems? fuel inner).map fun (found, after) => (.array found, after)
      | '\x7b' :: rest =>
          match skipSpace rest with
          | '\x7d' :: after => some (.object [], after)
          | inner => (readMembers? fuel inner).map fun (found, after) => (.object found, after)
      | 'n' :: rest => (readWord? "ull" rest).map (Json.null, ·)
      | 't' :: rest => (readWord? "rue" rest).map (Json.boolean true, ·)
      | 'f' :: rest => (readWord? "alse" rest).map (Json.boolean false, ·)
      | other => (readNumber? other).map fun (found, after) => (.number found, after)

def readItems? : Nat → List Char → Option (List Json × List Char)
  | 0, _ => none
  | fuel + 1, text =>
      (readValue? fuel text).bind fun (item, rest) =>
        match skipSpace rest with
        | ']' :: after => some ([item], after)
        | ',' :: after => (readItems? fuel after).map fun (found, after) => (item :: found, after)
        | _ => none

def readMembers? : Nat → List Char → Option (List (Option String × Json) × List Char)
  | 0, _ => none
  | fuel + 1, text =>
      match skipSpace text with
      | '"' :: rest =>
          (readString? rest).bind fun (name, rest) =>
            match skipSpace rest with
            | ':' :: rest =>
                (readValue? fuel rest).bind fun (value, rest) =>
                  match skipSpace rest with
                  | '\x7d' :: after => some ([(name, value)], after)
                  | ',' :: after =>
                      (readMembers? fuel after).map fun (found, after) =>
                        ((name, value) :: found, after)
                  | _ => none
            | _ => none
      | _ => none

end

def isEnd (char : Char) : Bool :=
  char = ',' || char = ']' || char = '\x7d'

/-- Read a whole text as one value. Every array, object and part of one that the readers enter in a
well-formed text has an end of its own, so that the ends bound the measure. -/
def parseChars? (text : List Char) : Option Json :=
  match readValue? (2 * text.countP isEnd + 2) text with
  | some (json, rest) => if skipSpace rest = [] then some json else none
  | none => none

def parse? (text : String) : Option Json :=
  parseChars? text.toList

/-- Read a whole string as one value all of whose parts can be used. -/
def parseSound? (text : String) : Option Json :=
  (parse? text).filter (isSound depthLimit)

end SourceBaseline.Json
