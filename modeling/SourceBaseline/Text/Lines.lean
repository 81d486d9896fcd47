/-!
# Lines

A line ends at a line feed, and a carriage return just before it belongs to the ending. What
follows the last line feed is a line only if it holds a character.
-/

set_option autoImplicit false

namespace SourceBaseline.Text

def lines : List Char → List (List Char)
  | [] => []
  | char :: rest =>
      if char = '\n' then [] :: lines rest
      else if char = '\r' ∧ rest.head? = some '\n' then lines rest
      else
        match lines rest with
        | [] => [[char]]
        | first :: others => (char :: first) :: others

def unlines (pieces : List (List Char)) : List Char :=
  ['\n'].intercalate pieces

end SourceBaseline.Text
