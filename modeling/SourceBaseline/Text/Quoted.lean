import SourceBaseline.Text.Hidden

/-!
# Quoted text

`quoted` writes a text between double quotes so that every character can be seen. `escaped`
writes a text in printable ASCII alone, without quotes around it.
-/

set_option autoImplicit false

namespace SourceBaseline.Text

def codeEscape (char : Char) : List Char :=
  "\\u\x7b".toList ++ Nat.toDigits 16 char.toNat ++ ['\x7d']

def quotedChar (char : Char) : List Char :=
  if char = '"' then ['\\', '"']
  else if char = '\\' then ['\\', '\\']
  else if char = '\t' then ['\\', 't']
  else if char = '\n' then ['\\', 'n']
  else if char = '\r' then ['\\', 'r']
  else if char = Char.ofNat 0 then ['\\', '0']
  else if isHidden char then codeEscape char
  else [char]

def quoted (text : String) : String :=
  .ofList ('"' :: text.toList.flatMap quotedChar ++ ['"'])

def escapedChar (char : Char) : List Char :=
  if char = '\t' then ['\\', 't']
  else if char = '\n' then ['\\', 'n']
  else if char = '\r' then ['\\', 'r']
  else if char = Char.ofNat 39 ∨ char = '"' ∨ char = '\\' then ['\\', char]
  else if 0x20 ≤ char.toNat ∧ char.toNat ≤ 0x7E then [char]
  else codeEscape char

/-- The text in printable ASCII. -/
def escaped (text : String) : String :=
  .ofList (text.toList.flatMap escapedChar)

end SourceBaseline.Text
