import SourceBaseline.Json.Parser

/-!
# Strings in TOML

A string stands between double quotes, where a backslash begins an escape, or between apostrophes,
where it does not. Three marks in a row open and close a string of several lines; a line feed right
after the opening marks is dropped, and up to two marks more may stand before the closing ones.
-/

set_option autoImplicit false

namespace SourceBaseline.Toml

def isPlain (char : Char) : Bool :=
  char = '\t' || (32 ≤ char.toNat && char.toNat ≠ 127)

def isBlank (char : Char) : Bool :=
  char = ' ' || char = '\t'

def unescape? (letter : Char) : Option Char :=
  if letter = '"' ∨ letter = '\\' then some letter
  else if letter = 'b' then some (Char.ofNat 8)
  else if letter = 'f' then some (Char.ofNat 12)
  else if letter = 'n' then some '\n'
  else if letter = 'r' then some '\r'
  else if letter = 't' then some '\t'
  else none

def charOfHex? (digits : List Char) : Option Char := do
  let values ← digits.mapM Json.hexValue?
  let code := values.foldl (fun code value => code * 16 + value) 0
  if code.isValidChar then pure (Char.ofNat code) else none

def prepend (char : Char) (found : List Char × List Char) : List Char × List Char :=
  (char :: found.1, found.2)

def readBasic? : List Char → Option (List Char × List Char)
  | [] => none
  | '"' :: rest => some ([], rest)
  | '\\' :: 'u' :: a :: b :: c :: d :: rest => do
      pure (prepend (← charOfHex? [a, b, c, d]) (← readBasic? rest))
  | '\\' :: 'U' :: a :: b :: c :: d :: e :: f :: g :: h :: rest => do
      pure (prepend (← charOfHex? [a, b, c, d, e, f, g, h]) (← readBasic? rest))
  | '\\' :: letter :: rest => do
      pure (prepend (← unescape? letter) (← readBasic? rest))
  | char :: rest =>
      if isPlain char && char ≠ '\\' then (readBasic? rest).map (prepend char) else none

def readLiteral? : List Char → Option (List Char × List Char)
  | [] => none
  | '\x27' :: rest => some ([], rest)
  | char :: rest => if isPlain char then (readLiteral? rest).map (prepend char) else none

def afterLineFeed? : List Char → Option (List Char)
  | '\n' :: rest => some rest
  | '\r' :: '\n' :: rest => some rest
  | _ => none

/-- The marks that still belong to a string of several lines after three of them. -/
def closingMarks (mark : Char) : List Char → List Char × List Char
  | [] => ([], [])
  | [char] => if char = mark then ([mark], []) else ([], [char])
  | first :: second :: rest =>
      if first = mark then
        if second = mark then ([mark, mark], rest) else ([mark], second :: rest)
      else ([], first :: second :: rest)

/-- Read a string of several lines after its opening double quotes. While blanks are skipped, a
backslash at the end of a line stands before them. -/
def readManyBasic? : Bool → List Char → Option (List Char × List Char)
  | _, [] => none
  | _, '"' :: '"' :: '"' :: rest => some (closingMarks '"' rest)
  | skipping, '\r' :: '\n' :: rest =>
      let found := readManyBasic? skipping rest
      if skipping then found else found.map (prepend '\n')
  | skipping, '\n' :: rest =>
      let found := readManyBasic? skipping rest
      if skipping then found else found.map (prepend '\n')
  | _, '\\' :: 'u' :: a :: b :: c :: d :: rest => do
      pure (prepend (← charOfHex? [a, b, c, d]) (← readManyBasic? false rest))
  | _, '\\' :: 'U' :: a :: b :: c :: d :: e :: f :: g :: h :: rest => do
      pure (prepend (← charOfHex? [a, b, c, d, e, f, g, h]) (← readManyBasic? false rest))
  | _, '\\' :: letter :: rest =>
      if (afterLineFeed? ((letter :: rest).dropWhile isBlank)).isSome then
        if letter = '\r' then readManyBasic? true (letter :: rest) else readManyBasic? true rest
      else do pure (prepend (← unescape? letter) (← readManyBasic? false rest))
  | skipping, char :: rest =>
      if skipping && isBlank char then readManyBasic? true rest
      else if isPlain char && char ≠ '\\' then (readManyBasic? false rest).map (prepend char)
      else none

def readManyLiteral? : List Char → Option (List Char × List Char)
  | [] => none
  | '\x27' :: '\x27' :: '\x27' :: rest => some (closingMarks '\x27' rest)
  | '\r' :: '\n' :: rest => (readManyLiteral? rest).map (prepend '\n')
  | char :: rest =>
      if isPlain char || char = '\n' then (readManyLiteral? rest).map (prepend char) else none

def readString? : List Char → Option (List Char × List Char)
  | '"' :: '"' :: '"' :: rest => readManyBasic? false ((afterLineFeed? rest).getD rest)
  | '"' :: rest => readBasic? rest
  | '\x27' :: '\x27' :: '\x27' :: rest => readManyLiteral? ((afterLineFeed? rest).getD rest)
  | '\x27' :: rest => readLiteral? rest
  | _ => none

end SourceBaseline.Toml
