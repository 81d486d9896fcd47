import SourceBaseline.Json

/-!
# Writing JSON

Documents are written with two spaces per level, a space after each colon, and `\x7b\x7d` and `[]`
for what is empty. Only quotes, backslashes and control characters are escaped.
-/

set_option autoImplicit false

namespace SourceBaseline.Json

def shortEscape? (char : Char) : Option Char :=
  if char = '"' then some '"'
  else if char = '\\' then some '\\'
  else if char = Char.ofNat 8 then some 'b'
  else if char = '\t' then some 't'
  else if char = '\n' then some 'n'
  else if char = Char.ofNat 12 then some 'f'
  else if char = '\r' then some 'r'
  else none

def hexDigit (value : Nat) : Char :=
  Nat.digitChar (value % 16)

def printChar (char : Char) : List Char :=
  match shortEscape? char with
  | some letter => ['\\', letter]
  | none =>
      if char.toNat < 32 then
        ['\\', 'u', '0', '0', hexDigit (char.toNat / 16), hexDigit char.toNat]
      else [char]

/-- A written string. A string without a text is written as half a pair of surrogates. -/
def printString : Option String → List Char
  | some text => '"' :: (text.toList.flatMap printChar ++ ['"'])
  | none => "\"\\ud800\"".toList

def printNumber : JsonNumber → List Char
  | .natural value => Nat.toDigits 10 value
  | .decimal negative digits exponent =>
      (if negative then ['-'] else []) ++ Nat.toDigits 10 digits ++ ['e'] ++
        (toString exponent).toList

def newLine (level : Nat) : List Char :=
  '\n' :: List.replicate (2 * level) ' '

mutual

/-- A written value whose lines after the first stand at `level`. -/
def print (level : Nat) : Json → List Char
  | .null => "null".toList
  | .boolean true => "true".toList
  | .boolean false => "false".toList
  | .number value => printNumber value
  | .string text => printString text
  | .array [] => ['[', ']']
  | .array (item :: rest) =>
      '[' :: (newLine (level + 1) ++ print (level + 1) item ++ printItems (level + 1) rest ++
        newLine level ++ [']'])
  | .object [] => ['\x7b', '\x7d']
  | .object ((name, value) :: rest) =>
      '\x7b' :: (newLine (level + 1) ++ printString name ++ [':', ' '] ++ print (level + 1) value ++
        printMembers (level + 1) rest ++ newLine level ++ ['\x7d'])

def printItems (level : Nat) : List Json → List Char
  | [] => []
  | item :: rest => ',' :: (newLine level ++ print level item ++ printItems level rest)

def printMembers (level : Nat) : List (Option String × Json) → List Char
  | [] => []
  | (name, value) :: rest =>
      ',' :: (newLine level ++ printString name ++ [':', ' '] ++ print level value ++
        printMembers level rest)

end

/-- The value as a document over several lines, without a final line feed. -/
def pretty (json : Json) : String :=
  .ofList (json.print 0)

end SourceBaseline.Json
