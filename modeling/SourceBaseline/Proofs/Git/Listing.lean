import SourceBaseline.Git
import SourceBaseline.Proofs.Path

/-!
# What git lists

A listing has one line for each record: the state and the names of a file with tabulators between
them. A name that holds more than plain characters is printed in quotes, byte by byte. It is read as
it is printed, quotes and escapes included, so that `parseNameStatus_listing` gives back the names
that are plain and no others.
-/

set_option autoImplicit false

namespace SourceBaseline.Git

/-- A character of printable ASCII. -/
def isPrintable (char : Char) : Bool :=
  32 ≤ char.toNat && char.toNat < 127

/-- A character that needs no quotes. -/
def isPlain (char : Char) : Bool :=
  isPrintable char && char ≠ '"' && char ≠ '\\'

/-- The last three digits of a number. -/
def threeDigits (base number : Nat) : List Char :=
  [Nat.digitChar (number / (base * base) % base), Nat.digitChar (number / base % base),
    Nat.digitChar (number % base)]

/-- The letter by which a byte is escaped, if it has one. -/
def escapeLetter? : Nat → Option Char
  | 7 => some 'a'
  | 8 => some 'b'
  | 9 => some 't'
  | 10 => some 'n'
  | 11 => some 'v'
  | 12 => some 'f'
  | 13 => some 'r'
  | 34 => some '"'
  | 92 => some '\\'
  | _ => none

/-- A byte inside quotes. -/
def quotedByte (byte : UInt8) : List Char :=
  match escapeLetter? byte.toNat with
  | some letter => ['\\', letter]
  | none =>
      if byte.toNat < 32 ∨ 127 ≤ byte.toNat then '\\' :: threeDigits 8 byte.toNat
      else [Char.ofNat byte.toNat]

def quotedName (name : String) : List Char :=
  '"' :: (name.toList.flatMap String.utf8EncodeChar).flatMap quotedByte ++ ['"']

/-- A name as git prints it. -/
def printedName (name : String) : List Char :=
  if name.toList.all isPlain then name.toList else quotedName name

/-- A file that git lists. The similarity of a rename or a copy is in percent. -/
inductive Record where
  | added (file : String)
  | modified (file : String)
  | retyped (file : String)
  | deleted (file : String)
  | renamed (similarity : Fin 101) (source target : String)
  | copied (similarity : Fin 101) (source target : String)
  deriving DecidableEq

namespace Record

def status : Record → List Char
  | added _ => ['A']
  | modified _ => ['M']
  | retyped _ => ['T']
  | deleted _ => ['D']
  | renamed similarity _ _ => 'R' :: threeDigits 10 similarity
  | copied similarity _ _ => 'C' :: threeDigits 10 similarity

def names : Record → List String
  | added file | modified file | retyped file | deleted file => [file]
  | renamed _ source target | copied _ source target => [source, target]

def line (record : Record) : List Char :=
  record.status ++ record.names.flatMap fun name => '\t' :: printedName name

/-- What the record says about files. -/
def changes : Record → List FileChange
  | added file | copied _ _ file => [⟨.added, file⟩]
  | modified file | retyped file => [⟨.modified, file⟩]
  | deleted file => [⟨.deleted, file⟩]
  | renamed _ source target => [⟨.added, target⟩, ⟨.deleted, source⟩]

end Record

def listing (records : List Record) : String :=
  .ofList (records.flatMap fun record => record.line ++ ['\n'])

/-- The change as it is read when its file is printed. -/
def asRead (change : FileChange) : FileChange :=
  { change with file := forwardSlashes (printedName change.file) }

/-! ## Printed names -/

section Names

variable {name : String} {char : Char} {record : Record}

theorem isPrintable_digitChar {digit : Nat} (small : digit < 10) :
    isPrintable (Nat.digitChar digit) = true := by
  have all : ∀ digit < 10, isPrintable (Nat.digitChar digit) = true := by decide
  exact all digit small

theorem isPrintable_of_mem_threeDigits {base number : Nat} (positive : 0 < base) (small : base ≤ 10)
    (member : char ∈ threeDigits base number) : isPrintable char = true := by
  have digit : ∀ part, isPrintable (Nat.digitChar (part % base)) = true := by
    intro part
    exact isPrintable_digitChar (Nat.lt_of_lt_of_le (Nat.mod_lt part positive) small)
  simp only [threeDigits, List.mem_cons, List.not_mem_nil] at member
  rcases member with rfl | rfl | rfl | ⟨⟨⟩⟩
  · exact digit _
  · exact digit _
  · exact digit _

theorem isPrintable_of_escapeLetter? {code : Nat} (found : escapeLetter? code = some char) :
    isPrintable char = true := by
  unfold escapeLetter? at found
  split at found <;> cases found <;> rfl

theorem quotedByte_ne_nil (byte : UInt8) : quotedByte byte ≠ [] := by
  unfold quotedByte
  split
  next => exact List.cons_ne_nil _ _
  next => split <;> exact List.cons_ne_nil _ _

theorem isPrintable_of_mem_quotedByte {byte : UInt8} (member : char ∈ quotedByte byte) :
    isPrintable char = true := by
  unfold quotedByte at member
  split at member
  next letter found =>
    simp only [List.mem_cons, List.not_mem_nil] at member
    rcases member with rfl | rfl | ⟨⟨⟩⟩
    · rfl
    · exact isPrintable_of_escapeLetter? found
  next =>
    split at member
    next =>
      rcases List.mem_cons.1 member with rfl | digit
      · rfl
      · exact isPrintable_of_mem_threeDigits (by decide) (by decide) digit
    next range =>
      have valid : byte.toNat.isValidChar := .inl (by omega)
      have ascii : (Char.ofNat byte.toNat).toNat = byte.toNat := by
        rw [Char.ofNat, dif_pos valid]
        rfl
      rw [List.mem_singleton.1 member, isPrintable, ascii, Bool.and_eq_true]
      exact ⟨decide_eq_true (by omega), decide_eq_true (by omega)⟩

theorem isPrintable_of_mem_printedName (member : char ∈ printedName name) :
    isPrintable char = true := by
  rw [printedName] at member
  split at member
  next plain =>
    have isPlain := List.all_eq_true.1 plain char member
    simp only [Git.isPlain, Bool.and_eq_true] at isPlain
    exact isPlain.1.1
  next =>
    simp only [quotedName, List.mem_append, List.mem_cons, List.mem_flatMap, List.not_mem_nil] at member
    rcases member with (rfl | ⟨byte, _, inside⟩) | rfl | ⟨⟨⟩⟩
    · rfl
    · exact isPrintable_of_mem_quotedByte inside
    · rfl

theorem isPrintable_of_mem_status (member : char ∈ record.status) : isPrintable char = true := by
  cases record with
  | renamed similarity source target =>
      rcases List.mem_cons.1 member with rfl | digit
      · rfl
      · exact isPrintable_of_mem_threeDigits (by decide) (by decide) digit
  | copied similarity source target =>
      rcases List.mem_cons.1 member with rfl | digit
      · rfl
      · exact isPrintable_of_mem_threeDigits (by decide) (by decide) digit
  | added file | modified file | retyped file | deleted file =>
      rw [List.mem_singleton.1 member]
      rfl

theorem length_le_flatMap {α β : Type} {part : α → List β} (solid : ∀ item, part item ≠ [])
    (items : List α) : items.length ≤ (items.flatMap part).length := by
  induction items with
  | nil => exact Nat.le_refl 0
  | cons first rest ih =>
      have size := List.length_pos_iff.2 (solid first)
      rw [List.flatMap_cons, List.length_append, List.length_cons]
      omega

theorem length_lt_quotedName (name : String) : name.toList.length < (quotedName name).length := by
  have solid : ∀ char, String.utf8EncodeChar char ≠ [] := by
    intro char empty
    have size := Char.utf8Size_pos char
    rw [← String.length_utf8EncodeChar, empty] at size
    exact absurd size (Nat.lt_irrefl 0)
  have bytes := length_le_flatMap solid name.toList
  have quotes := length_le_flatMap quotedByte_ne_nil (name.toList.flatMap String.utf8EncodeChar)
  simp only [quotedName, List.length_append, List.length_cons, List.length_nil]
  omega

/-- A name is read back just if it is printed without quotes. -/
theorem forwardSlashes_printedName :
    forwardSlashes (printedName name) = name ↔ ∀ char ∈ name.toList, isPlain char = true := by
  rw [printedName, ← List.all_eq_true]
  split
  next plain =>
    have unchanged : ∀ char ∈ name.toList, (if char = '\\' then '/' else char) = char := by
      intro char member
      refine if_neg ?_
      rintro rfl
      exact absurd (List.all_eq_true.1 plain _ member) (by decide)
    rw [forwardSlashes, List.map_congr_left unchanged, List.map_id', String.ofList_toList]
    exact iff_of_true rfl plain
  next quoted =>
    refine iff_of_false (fun same => ?_) quoted
    have sizes := congrArg (fun text : String => text.toList.length) same
    simp only [forwardSlashes, String.toList_ofList, List.length_map] at sizes
    exact absurd (length_lt_quotedName name) (by omega)

end Names

/-! ## Fields and lines -/

section Lines

variable {record : Record} {records : List Record}

theorem not_mem_of_isPrintable {chars : List Char} {char : Char}
    (printable : ∀ other ∈ chars, isPrintable other = true) (control : isPrintable char = false) :
    char ∉ chars := by
  intro member
  cases control.symm.trans (printable char member)

theorem pieces_fields {first : List Char} (undivided : '\t' ∉ first) (names : List String) :
    Text.pieces '\t' (first ++ names.flatMap fun name => '\t' :: printedName name) =
      first :: names.map printedName := by
  induction names generalizing first with
  | nil => rw [List.flatMap_nil, List.append_nil, Text.pieces_of_not_mem undivided, List.map_nil]
  | cons name rest ih =>
      have undividedName : '\t' ∉ printedName name :=
        not_mem_of_isPrintable (fun _ => isPrintable_of_mem_printedName) rfl
      rw [List.flatMap_cons, List.cons_append, Text.pieces_append, Text.pieces_of_not_mem undivided,
        ih undividedName, List.map_cons]
      rfl

/-- A line is read as its record says, with the names as they are printed. -/
theorem lineChanges_line (record : Record) :
    lineChanges record.line = record.changes.map asRead := by
  have undivided : '\t' ∉ record.status :=
    not_mem_of_isPrintable (fun _ => isPrintable_of_mem_status) rfl
  have fields := pieces_fields undivided record.names
  unfold lineChanges
  rw [Record.line, fields]
  cases record <;> rfl

theorem lines_append {line : List Char} (unbroken : '\n' ∉ line ∧ '\r' ∉ line) (rest : List Char) :
    Text.lines (line ++ '\n' :: rest) = line :: Text.lines rest := by
  obtain ⟨noFeed, noReturn⟩ := unbroken
  induction line with
  | nil => rfl
  | cons char more ih =>
      have later := ih (fun member => noFeed (.tail _ member)) fun member => noReturn (.tail _ member)
      rw [List.cons_append, Text.lines, if_neg (fun same => noFeed (by simp [same])),
        if_neg (fun both => noReturn (by simp [both.1])), later]

theorem not_mem_line {char : Char} (control : isPrintable char = false) (noTab : char ≠ '\t') :
    char ∉ record.line := by
  intro member
  rcases List.mem_append.1 member with state | fields
  · cases control.symm.trans (isPrintable_of_mem_status state)
  · obtain ⟨name, _, inside⟩ := List.mem_flatMap.1 fields
    rcases List.mem_cons.1 inside with tab | printed
    · exact noTab tab
    · cases control.symm.trans (isPrintable_of_mem_printedName printed)

theorem lines_listing (records : List Record) :
    Text.lines (listing records).toList = records.map Record.line := by
  rw [listing, String.toList_ofList]
  induction records with
  | nil => rfl
  | cons record rest ih =>
      have unbroken : '\n' ∉ record.line ∧ '\r' ∉ record.line :=
        ⟨not_mem_line rfl (by decide), not_mem_line rfl (by decide)⟩
      rw [List.flatMap_cons, List.append_assoc, List.singleton_append, lines_append unbroken, ih,
        List.map_cons]

/-- What git lists is read record by record, in order and with each name as it is printed. So the
changes are those of the records just if all their names are plain: a name that git puts in quotes is
read with its quotes. -/
theorem parseNameStatus_listing (records : List Record) :
    parseNameStatus (listing records) = (records.flatMap Record.changes).map asRead ∧
      (parseNameStatus (listing records) = records.flatMap Record.changes ↔
        ∀ change ∈ records.flatMap Record.changes, ∀ char ∈ change.file.toList,
          isPlain char = true) := by
  have read : parseNameStatus (listing records) = (records.flatMap Record.changes).map asRead := by
    rw [parseNameStatus, lines_listing, List.flatMap_map, List.map_flatMap]
    simp only [lineChanges_line]
  have kept : ∀ change, asRead change = change ↔ ∀ char ∈ change.file.toList, isPlain char = true := by
    intro change
    rw [← forwardSlashes_printedName, asRead]
    exact ⟨fun same => congrArg FileChange.file same, fun same => by rw [same]⟩
  refine ⟨read, ?_⟩
  have each : (records.flatMap Record.changes).map asRead = (records.flatMap Record.changes).map id ↔
      ∀ change ∈ records.flatMap Record.changes, asRead change = change := List.map_inj_left
  rw [List.map_id] at each
  rw [read, each]
  simp only [kept]

/-- A name with an accent comes back in quotes and with its backslashes turned. -/
theorem parseNameStatus_listing_accent :
    (listing [.added "\u00e9.txt"] = "A\t\"\\303\\251.txt\"\n") ∧
      parseNameStatus (listing [.added "\u00e9.txt"]) = [⟨.added, "\"/303/251.txt\""⟩] ∧
      parseNameStatus (listing [.added "\u00e9.txt"]) ≠ Record.changes (.added "\u00e9.txt") := by
  decide +kernel

end Lines

end SourceBaseline.Git
