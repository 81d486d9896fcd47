/-!
# Positions and bytes of text

Positions in a source are counted in bytes of its UTF-8 form. A slice exists only where both
ends stand between two characters.
-/

set_option autoImplicit false

namespace SourceBaseline.Text

/-- The text from byte `offset` on, if a character starts there or the text ends there. -/
def dropBytes? : Nat → List Char → Option (List Char)
  | 0, text => some text
  | _ + 1, [] => none
  | offset + 1, char :: rest =>
      if char.utf8Size ≤ offset + 1 then dropBytes? (offset + 1 - char.utf8Size) rest else none

/-- The first `count` bytes, if a character ends there. -/
def takeBytes? : Nat → List Char → Option (List Char)
  | 0, _ => some []
  | _ + 1, [] => none
  | count + 1, char :: rest =>
      if char.utf8Size ≤ count + 1 then
        (takeBytes? (count + 1 - char.utf8Size) rest).map (char :: ·)
      else none

def slice? (text : List Char) (start stop : Nat) : Option (List Char) :=
  if start ≤ stop then (dropBytes? start text).bind (takeBytes? (stop - start)) else none

/-- The zero-based line of byte `offset`: the number of line feeds before it. -/
def rowAt : Nat → List Char → Nat
  | 0, _ => 0
  | _ + 1, [] => 0
  | offset + 1, char :: rest =>
      (if char = '\n' then 1 else 0) + rowAt (offset + 1 - char.utf8Size) rest

/-- The bytes between byte `offset` and the last line feed before it, where `column` bytes
stand between that line feed and the start of the text. -/
def columnFrom (column : Nat) : Nat → List Char → Nat
  | 0, _ => column
  | offset + 1, [] => column + offset + 1
  | offset + 1, char :: rest =>
      columnFrom (if char = '\n' then 0 else column + min char.utf8Size (offset + 1))
        (offset + 1 - char.utf8Size) rest

def columnAt (offset : Nat) (text : List Char) : Nat :=
  columnFrom 0 offset text

/-- The number of continuation bytes that a leading byte asks for, with the range of the first
of them; none if no sequence starts with the byte. -/
def sequenceAfter? (lead : UInt8) : Option (Nat × UInt8 × UInt8) :=
  if lead < 0x80 then some (0, 0x80, 0xBF)
  else if lead < 0xC2 then none
  else if lead < 0xE0 then some (1, 0x80, 0xBF)
  else if lead = 0xE0 then some (2, 0xA0, 0xBF)
  else if lead = 0xED then some (2, 0x80, 0x9F)
  else if lead < 0xF0 then some (2, 0x80, 0xBF)
  else if lead = 0xF0 then some (3, 0x90, 0xBF)
  else if lead < 0xF4 then some (3, 0x80, 0xBF)
  else if lead = 0xF4 then some (3, 0x80, 0x8F)
  else none

/-- How many of the next `count` bytes continue a sequence; the first lies in `low` to `high`. -/
def continuation (count : Nat) (low high : UInt8) : List UInt8 → Nat
  | [] => 0
  | byte :: rest =>
      match count with
      | 0 => 0
      | count + 1 =>
          if low ≤ byte ∧ byte ≤ high then 1 + continuation count 0x80 0xBF rest else 0

def charOfSequence (lead : UInt8) (rest : List UInt8) : Char :=
  let leadBits := if lead < 0x80 then lead.toNat
    else if lead < 0xE0 then lead.toNat % 32
    else if lead < 0xF0 then lead.toNat % 16
    else lead.toNat % 8
  Char.ofNat (rest.foldl (fun code byte => code * 64 + byte.toNat % 64) leadBits)

/-- Read bytes as text, with U+FFFD for each longest piece that starts a sequence and does not
finish it. -/
def decodeLossy : List UInt8 → List Char
  | [] => []
  | lead :: rest =>
      match sequenceAfter? lead with
      | none => Char.ofNat 0xFFFD :: decodeLossy rest
      | some (count, low, high) =>
          let found := continuation count low high rest
          let char := if found = count then charOfSequence lead (rest.take count)
            else Char.ofNat 0xFFFD
          char :: decodeLossy (rest.drop found)
termination_by bytes => bytes.length
decreasing_by all_goals simp only [List.length_drop, List.length_cons]; omega

def ofBytesLossy (bytes : ByteArray) : String :=
  match String.fromUTF8? bytes with
  | some text => text
  | none => .ofList (decodeLossy bytes.toList)

end SourceBaseline.Text
