import SourceBaseline.Text.Blank
import SourceBaseline.Toml
import SourceBaseline.Toml.Quoted

/-!
# Reading TOML

A document is a list of lines: comments, headers and settings. `Toml.parse?` reads them and puts
the tables together. Values of other types than strings, integers, arrays and tables are refused,
and so are headers in double brackets, because no setting has such a value.
-/

set_option autoImplicit false

namespace SourceBaseline.Toml

def isKeyChar (char : Char) : Bool :=
  char.isAlphanum || char = '-' || char = '_'

def skipBlanks (text : List Char) : List Char :=
  text.dropWhile isBlank

def readKeyPart? (text : List Char) : Option (String × List Char) :=
  match text with
  | '"' :: rest => (readBasic? rest).map fun (part, after) => (.ofList part, after)
  | '\x27' :: rest => (readLiteral? rest).map fun (part, after) => (.ofList part, after)
  | _ =>
      match text.takeWhile isKeyChar with
      | [] => none
      | part => some (.ofList part, text.dropWhile isKeyChar)

def readKeyParts? : Nat → List Char → Option (List String × List Char)
  | 0, _ => none
  | fuel + 1, text => do
      let (part, rest) ← readKeyPart? (skipBlanks text)
      match skipBlanks rest with
      | '.' :: after =>
          let (parts, after) ← readKeyParts? fuel after
          pure (part :: parts, after)
      | after => pure ([part], after)

def readKey? (text : List Char) : Option ((List String × String) × List Char) := do
  let (parts, rest) ← readKeyParts? (text.length + 1) text
  pure ((parts.dropLast, ← parts.getLast?), rest)

/-- The value of digits with single underscores between them. -/
def groupedDigits? (base : Nat) (text : List Char) : Option Nat := do
  let groups := Text.pieces '_' text
  if groups.any (· = []) then none
  let digits ← groups.flatten.mapM Json.hexValue?
  if digits.all (· < base) then
    pure (digits.foldl (fun value digit => value * base + digit) 0)
  else none

def decimal? (text : List Char) : Option Nat :=
  if text.head? = some '0' ∧ text ≠ ['0'] then none else groupedDigits? 10 text

def integer? (token : List Char) : Option Int := do
  let value : Int ← match token with
    | '0' :: 'x' :: digits => (groupedDigits? 16 digits).map Int.ofNat
    | '0' :: 'o' :: digits => (groupedDigits? 8 digits).map Int.ofNat
    | '0' :: 'b' :: digits => (groupedDigits? 2 digits).map Int.ofNat
    | '+' :: digits => (decimal? digits).map Int.ofNat
    | '-' :: digits => (decimal? digits).map fun value => -Int.ofNat value
    | digits => (decimal? digits).map Int.ofNat
  if -9223372036854775808 ≤ value ∧ value ≤ 9223372036854775807 then pure value else none

def isNumberChar (char : Char) : Bool :=
  isKeyChar char || char = '+'

def skipFiller : Bool → List Char → List Char
  | _, [] => []
  | _, '\r' :: '\n' :: rest => skipFiller false rest
  | _, '\n' :: rest => skipFiller false rest
  | true, char :: rest => if isPlain char then skipFiller true rest else char :: rest
  | false, char :: rest =>
      if isBlank char then skipFiller false rest
      else if char = '#' then skipFiller true rest
      else char :: rest

mutual

def readValue? : Nat → List Char → Option (Toml × List Char)
  | 0, _ => none
  | fuel + 1, text =>
      match text with
      | '[' :: rest => (readItems? fuel rest).map fun (items, after) => (.array items, after)
      | '\x7b' :: rest => do
          let (settings, after) ← readInline? fuel rest
          pure (.table .inline (← TomlEntries.ofInline? settings), after)
      | '"' :: _ | '\x27' :: _ =>
          (readString? text).map fun (found, after) => (.string (.ofList found), after)
      | _ =>
          (integer? (text.takeWhile isNumberChar)).map fun value =>
            (.integer value, text.dropWhile isNumberChar)

def readItems? : Nat → List Char → Option (List Toml × List Char)
  | 0, _ => none
  | fuel + 1, text =>
      match skipFiller false text with
      | ']' :: after => some ([], after)
      | inner => do
          let (item, rest) ← readValue? fuel inner
          match skipFiller false rest with
          | ']' :: after => pure ([item], after)
          | ',' :: after =>
              let (items, after) ← readItems? fuel after
              pure (item :: items, after)
          | _ => none

def readInline? : Nat → List Char → Option (List TomlSetting × List Char)
  | 0, _ => none
  | fuel + 1, text =>
      match skipBlanks text with
      | '\x7d' :: after => some ([], after)
      | inner => readPairs? fuel inner

/-- Read settings with commas between them up to a closing brace. -/
def readPairs? : Nat → List Char → Option (List TomlSetting × List Char)
  | 0, _ => none
  | fuel + 1, text => do
      let ((path, key), rest) ← readKey? text
      match rest with
      | '=' :: rest =>
          let (value, rest) ← readValue? fuel (skipBlanks rest)
          match skipBlanks rest with
          | '\x7d' :: after => pure ([⟨path, key, value⟩], after)
          | ',' :: after =>
              let (settings, after) ← readPairs? fuel after
              pure (⟨path, key, value⟩ :: settings, after)
          | _ => none
      | _ => none

end

def readLineEnd? (text : List Char) : Option (List Char) :=
  let rest := match skipBlanks text with
    | '#' :: comment => comment.dropWhile isPlain
    | other => other
  if rest = [] then some [] else afterLineFeed? rest

def readSettings? : Nat → List Char → Option (List TomlSetting × List Char)
  | 0, _ => none
  | fuel + 1, text =>
      match skipFiller false text with
      | [] => some ([], [])
      | '[' :: rest => some ([], '[' :: rest)
      | inner => do
          let ((path, key), rest) ← readKey? inner
          match rest with
          | '=' :: rest =>
              let (value, rest) ← readValue? (2 * inner.length + 2) (skipBlanks rest)
              let (settings, after) ← readSettings? fuel (← readLineEnd? rest)
              pure (⟨path, key, value⟩ :: settings, after)
          | _ => none

def readSections? : Nat → List Char → Option (List TomlSection)
  | 0, _ => none
  | fuel + 1, text =>
      match text with
      | [] => some []
      | '[' :: rest => do
          let (header, rest) ← readKey? rest
          match rest with
          | ']' :: rest =>
              let (settings, after) ← readSettings? text.length (← readLineEnd? rest)
              pure (⟨some header, settings⟩ :: (← readSections? fuel after))
          | _ => none
      | _ => none

def dropMark (text : List Char) : List Char :=
  match text with
  | char :: rest => if char = '\ufeff' then rest else text
  | [] => []

def parse? (text : String) : Option TomlEntries := do
  let chars := dropMark text.toList
  let fuel := chars.length + 1
  let (settings, after) ← readSettings? fuel chars
  TomlEntries.ofSections? (⟨none, settings⟩ :: (← readSections? fuel after))

end SourceBaseline.Toml
