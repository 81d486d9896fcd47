/-!
# SHA-256

The content of a file is recorded by its SHA-256 digest in lower-case hexadecimal.
-/

set_option autoImplicit false

namespace SourceBaseline.Sha256

/-- The first 32 bits of the fractional parts of the cube roots of the first 64 primes. -/
def roundConstants : Array UInt32 := #[
  0x428a2f98, 0x71374491, 0xb5c0fbcf, 0xe9b5dba5, 0x3956c25b, 0x59f111f1, 0x923f82a4, 0xab1c5ed5,
  0xd807aa98, 0x12835b01, 0x243185be, 0x550c7dc3, 0x72be5d74, 0x80deb1fe, 0x9bdc06a7, 0xc19bf174,
  0xe49b69c1, 0xefbe4786, 0x0fc19dc6, 0x240ca1cc, 0x2de92c6f, 0x4a7484aa, 0x5cb0a9dc, 0x76f988da,
  0x983e5152, 0xa831c66d, 0xb00327c8, 0xbf597fc7, 0xc6e00bf3, 0xd5a79147, 0x06ca6351, 0x14292967,
  0x27b70a85, 0x2e1b2138, 0x4d2c6dfc, 0x53380d13, 0x650a7354, 0x766a0abb, 0x81c2c92e, 0x92722c85,
  0xa2bfe8a1, 0xa81a664b, 0xc24b8b70, 0xc76c51a3, 0xd192e819, 0xd6990624, 0xf40e3585, 0x106aa070,
  0x19a4c116, 0x1e376c08, 0x2748774c, 0x34b0bcb5, 0x391c0cb3, 0x4ed8aa4a, 0x5b9cca4f, 0x682e6ff3,
  0x748f82ee, 0x78a5636f, 0x84c87814, 0x8cc70208, 0x90befffa, 0xa4506ceb, 0xbef9a3f7, 0xc67178f2]

structure State where
  a : UInt32
  b : UInt32
  c : UInt32
  d : UInt32
  e : UInt32
  f : UInt32
  g : UInt32
  h : UInt32
  deriving DecidableEq, Inhabited

/-- The first 32 bits of the fractional parts of the square roots of the first eight primes. -/
def start : State :=
  ⟨0x6a09e667, 0xbb67ae85, 0x3c6ef372, 0xa54ff53a,
   0x510e527f, 0x9b05688c, 0x1f83d9ab, 0x5be0cd19⟩

def rotate (word amount : UInt32) : UInt32 :=
  (word >>> amount) ||| (word <<< (32 - amount))

/-- The message with a one bit, zero bits up to a whole block, and its length in bits. -/
def pad (message : ByteArray) : ByteArray :=
  let zeros := (119 - message.size % 64) % 64
  let length := message.size * 8
  let marked := (List.replicate zeros (0 : UInt8)).foldl ByteArray.push (message.push 0x80)
  [56, 48, 40, 32, 24, 16, 8, 0].foldl
    (fun bytes shift => bytes.push (UInt8.ofNat (length >>> shift))) marked

def byteAt (bytes : ByteArray) (index : Nat) : UInt32 :=
  (bytes.get! index).toUInt32

def wordAt (bytes : ByteArray) (index : Nat) : UInt32 :=
  (byteAt bytes index <<< 24) ||| (byteAt bytes (index + 1) <<< 16) |||
    (byteAt bytes (index + 2) <<< 8) ||| byteAt bytes (index + 3)

def extend (words : Array UInt32) (index : Nat) : Array UInt32 :=
  let early := words.getD (index - 15) 0
  let late := words.getD (index - 2) 0
  let small := rotate early 7 ^^^ rotate early 18 ^^^ (early >>> 3)
  let large := rotate late 17 ^^^ rotate late 19 ^^^ (late >>> 10)
  words.push (words.getD (index - 16) 0 + small + words.getD (index - 7) 0 + large)

/-- The 64 words that a block contributes to the rounds. -/
def schedule (bytes : ByteArray) (offset : Nat) : Array UInt32 :=
  let block := (List.range 16).foldl
    (fun words index => words.push (wordAt bytes (offset + 4 * index))) (Array.mkEmpty 64)
  (List.range 48).foldl (fun words index => extend words (index + 16)) block

def round (words : Array UInt32) (state : State) (index : Nat) : State :=
  let sum := rotate state.e 6 ^^^ rotate state.e 11 ^^^ rotate state.e 25
  let choice := (state.e &&& state.f) ^^^ (~~~ state.e &&& state.g)
  let first := state.h + sum + choice + roundConstants.getD index 0 + words.getD index 0
  let turn := rotate state.a 2 ^^^ rotate state.a 13 ^^^ rotate state.a 22
  let majority := (state.a &&& state.b) ^^^ (state.a &&& state.c) ^^^ (state.b &&& state.c)
  ⟨first + (turn + majority), state.a, state.b, state.c, state.d + first, state.e, state.f,
    state.g⟩

def compress (bytes : ByteArray) (state : State) (offset : Nat) : State :=
  let words := schedule bytes offset
  let after := (List.range 64).foldl (round words) state
  ⟨state.a + after.a, state.b + after.b, state.c + after.c, state.d + after.d,
    state.e + after.e, state.f + after.f, state.g + after.g, state.h + after.h⟩

def compressFrom (bytes : ByteArray) : Nat → Nat → State → State
  | 0, _, state => state
  | count + 1, offset, state => compressFrom bytes count (offset + 64) (compress bytes state offset)

def digestWords (message : ByteArray) : List UInt32 :=
  let padded := pad message
  let last := compressFrom padded (padded.size / 64) 0 start
  [last.a, last.b, last.c, last.d, last.e, last.f, last.g, last.h]

def hexWord (word : UInt32) : List Char :=
  [28, 24, 20, 16, 12, 8, 4, 0].map fun shift => Nat.digitChar ((word.toNat >>> shift) % 16)

/-- The digest of a message in lower-case hexadecimal. -/
def hex (message : ByteArray) : String :=
  .ofList ((digestWords message).flatMap hexWord)

end SourceBaseline.Sha256
