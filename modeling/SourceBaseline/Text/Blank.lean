/-!
# White space

A blank is a character with the Unicode property White_Space. Trimming removes blanks at the
ends of a text, and `words` lists the maximal runs of other characters.
-/

set_option autoImplicit false

namespace SourceBaseline.Text

/-- The characters with the Unicode property White_Space. -/
def isBlank (char : Char) : Bool :=
  let code := char.toNat
  (9 ≤ code && code ≤ 13) || code = 32 || code = 0x85 || code = 0xA0 || code = 0x1680 ||
    (0x2000 ≤ code && code ≤ 0x200A) || code = 0x2028 || code = 0x2029 || code = 0x202F ||
    code = 0x205F || code = 0x3000

def dropTrailing (drop : Char → Bool) (text : List Char) : List Char :=
  (text.reverse.dropWhile drop).reverse

def trim (text : List Char) : List Char :=
  dropTrailing isBlank (text.dropWhile isBlank)

def words : List Char → List (List Char)
  | [] => []
  | char :: rest =>
      if isBlank char then words rest
      else if (rest.head?.map isBlank).getD true then [char] :: words rest
      else
        match words rest with
        | [] => [[char]]
        | word :: others => (char :: word) :: others

def collapse (text : List Char) : List Char :=
  [' '].intercalate (words text)

def startsWith (text : List Char) (beginning : String) : Bool :=
  beginning.toList.isPrefixOf text

def endsWith (text : List Char) (ending : String) : Bool :=
  ending.toList.isSuffixOf text

def afterPrefix? (beginning text : List Char) : Option (List Char) :=
  if beginning.isPrefixOf text then some (text.drop beginning.length) else none

def beforeSuffix? (ending text : List Char) : Option (List Char) :=
  if ending.isSuffixOf text then some (text.take (text.length - ending.length)) else none

/-- Drop `marker` at the start as often as it stands there. An empty marker drops nothing. -/
def dropLeading (marker text : List Char) : List Char :=
  if _shorter : marker ≠ [] ∧ marker.isPrefixOf text then
    dropLeading marker (text.drop marker.length)
  else text
termination_by text.length
decreasing_by
  have nonempty := List.length_pos_iff.2 _shorter.1
  have within := (List.isPrefixOf_iff_prefix.1 _shorter.2).length_le
  simp only [List.length_drop]
  omega

def dropEnding (marker text : List Char) : List Char :=
  (dropLeading marker.reverse text.reverse).reverse

/-- The pieces between the occurrences of `separator`; a text without one is a single piece. -/
def pieces (separator : Char) : List Char → List (List Char)
  | [] => [[]]
  | char :: rest =>
      if char = separator then [] :: pieces separator rest
      else
        match pieces separator rest with
        | [] => [[char]]
        | piece :: others => (char :: piece) :: others

theorem not_mem_of_mem_pieces {separator : Char} {text piece : List Char}
    (member : piece ∈ pieces separator text) : separator ∉ piece := by
  induction text generalizing piece with
  | nil =>
      have empty : piece = [] := by simpa [pieces] using member
      simp [empty]
  | cons char rest ih =>
      rw [pieces] at member
      split at member
      next same =>
        rcases List.mem_cons.1 member with first | later
        · simp [first]
        · exact ih later
      next different =>
        cases split : pieces separator rest with
        | nil =>
            have single : piece = [char] := by simpa [split] using member
            simpa [single] using Ne.symm different
        | cons first others =>
            rw [split] at member
            rcases List.mem_cons.1 member with joined | later
            · have apart : separator ∉ first := ih (by simp [split])
              simpa [joined, apart] using Ne.symm different
            · exact ih (by simp [split, later])

def splitOnce? (separator : Char) : List Char → Option (List Char × List Char)
  | [] => none
  | char :: rest =>
      if char = separator then some ([], rest)
      else (splitOnce? separator rest).map fun (before, after) => (char :: before, after)

def collapseWhitespace (text : String) : String :=
  .ofList (collapse text.toList)

end SourceBaseline.Text
