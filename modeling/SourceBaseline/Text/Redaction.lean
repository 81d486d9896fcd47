import SourceBaseline.Text.Blank

/-!
# Redacting absolute paths

An absolute path that begins the text or follows a blank, a quote, a backtick, an opening
parenthesis or an equals sign is replaced by a marker. A path reaches up to the next blank, quote,
backtick, comma, semicolon, colon or closing parenthesis.
-/

set_option autoImplicit false

namespace SourceBaseline.Text

def isQuote (char : Char) : Bool :=
  char = Char.ofNat 39 || char = '"' || char = Char.ofNat 96

def opensPath (char : Char) : Bool :=
  isBlank char || isQuote char || char = '(' || char = '='

def endsPath (char : Char) : Bool :=
  isBlank char || isQuote char || char = ',' || char = ';' || char = ':' || char = ')'

/-- The number of characters by which an absolute path at the start of the text is recognized: a
slash, or a drive letter, a colon and a slash of either kind. -/
def rootLength (text : List Char) : Nat :=
  match text with
  | '/' :: _ => 1
  | drive :: ':' :: slash :: _ =>
      if drive.isAlpha ∧ (slash = '/' ∨ slash = '\\') then 3 else 0
  | _ => 0

def afterPath (text : List Char) : List Char :=
  (text.drop (rootLength text)).dropWhile (!endsPath ·)

theorem length_afterPath_le (text : List Char) : (afterPath text).length ≤ text.length := by
  unfold afterPath
  have shorter :=
    (List.dropWhile_sublist (!endsPath ·) (l := text.drop (rootLength text))).length_le
  simp only [List.length_drop] at shorter
  omega

def pathMarker : List Char := "<path>".toList

def redactFrom : List Char → List Char
  | [] => []
  | char :: rest =>
      if opensPath char ∧ rootLength rest ≠ 0 then
        char :: (pathMarker ++ redactFrom (afterPath rest))
      else char :: redactFrom rest
termination_by text => text.length
decreasing_by
  · exact Nat.lt_succ_of_le (length_afterPath_le rest)
  · simp

def redactPaths (text : List Char) : List Char :=
  if rootLength text ≠ 0 then pathMarker ++ redactFrom (afterPath text) else redactFrom text

/-- Redact every absolute path of a string. -/
def sanitize (message : String) : String :=
  .ofList (redactPaths message.toList)

end SourceBaseline.Text
