/-!
Contract: SHA-256 of a byte sequence, written in hexadecimal digits.

The message is read in blocks of 64 bytes. Behind its last byte stand the byte
0x80, zeros, and the number of its bits in the last eight bytes of the last block.

Owns: the padded message, the compression of a block and the digest.
-/

namespace FactoryProxy.Digest

/-! ## The padded message -/

/-- The number of blocks of the padded message. -/
def blockCount (message : ByteArray) : Nat :=
  (message.size + 8) / 64 + 1

def paddedByte (message : ByteArray) (position : Nat) : UInt8 :=
  if inside : position < message.size then message[position]
  else if position = message.size then 0x80
  else
    let fromEnd := 64 * blockCount message - 1 - position
    if fromEnd < 8 then UInt8.ofNat ((8 * message.size) >>> (8 * fromEnd)) else 0

/-- A word of the padded message, its first byte the most significant. -/
def paddedWord (message : ByteArray) (position : Nat) : UInt32 :=
  let byte (offset : Nat) := (paddedByte message (position + offset)).toUInt32
  (byte 0 <<< 24) ||| (byte 1 <<< 16) ||| (byte 2 <<< 8) ||| byte 3

/-! ## Compression -/

/-- The eight chained words. -/
structure Chain where
  a : UInt32
  b : UInt32
  c : UInt32
  d : UInt32
  e : UInt32
  f : UInt32
  g : UInt32
  h : UInt32
deriving DecidableEq, Repr

namespace Chain

/-- The fractional parts of the square roots of the first eight primes. -/
def initial : Chain :=
  ⟨0x6a09e667, 0xbb67ae85, 0x3c6ef372, 0xa54ff53a,
    0x510e527f, 0x9b05688c, 0x1f83d9ab, 0x5be0cd19⟩

def words (chain : Chain) : List UInt32 :=
  [chain.a, chain.b, chain.c, chain.d, chain.e, chain.f, chain.g, chain.h]

def add (left right : Chain) : Chain :=
  ⟨left.a + right.a, left.b + right.b, left.c + right.c, left.d + right.d,
    left.e + right.e, left.f + right.f, left.g + right.g, left.h + right.h⟩

end Chain

/-- The fractional parts of the cube roots of the first 64 primes. -/
def constants : List UInt32 :=
  [0x428a2f98, 0x71374491, 0xb5c0fbcf, 0xe9b5dba5, 0x3956c25b, 0x59f111f1, 0x923f82a4,
    0xab1c5ed5, 0xd807aa98, 0x12835b01, 0x243185be, 0x550c7dc3, 0x72be5d74, 0x80deb1fe,
    0x9bdc06a7, 0xc19bf174, 0xe49b69c1, 0xefbe4786, 0x0fc19dc6, 0x240ca1cc, 0x2de92c6f,
    0x4a7484aa, 0x5cb0a9dc, 0x76f988da, 0x983e5152, 0xa831c66d, 0xb00327c8, 0xbf597fc7,
    0xc6e00bf3, 0xd5a79147, 0x06ca6351, 0x14292967, 0x27b70a85, 0x2e1b2138, 0x4d2c6dfc,
    0x53380d13, 0x650a7354, 0x766a0abb, 0x81c2c92e, 0x92722c85, 0xa2bfe8a1, 0xa81a664b,
    0xc24b8b70, 0xc76c51a3, 0xd192e819, 0xd6990624, 0xf40e3585, 0x106aa070, 0x19a4c116,
    0x1e376c08, 0x2748774c, 0x34b0bcb5, 0x391c0cb3, 0x4ed8aa4a, 0x5b9cca4f, 0x682e6ff3,
    0x748f82ee, 0x78a5636f, 0x84c87814, 0x8cc70208, 0x90befffa, 0xa4506ceb, 0xbef9a3f7,
    0xc67178f2]

def rotateRight (word : UInt32) (count : UInt32) : UInt32 :=
  (word >>> count) ||| (word <<< (32 - count))

/-- One of 64 rounds with its constant and its word of the schedule. -/
def round (chain : Chain) (constant word : UInt32) : Chain :=
  let sumE := rotateRight chain.e 6 ^^^ rotateRight chain.e 11 ^^^ rotateRight chain.e 25
  let choice := (chain.e &&& chain.f) ^^^ (~~~chain.e &&& chain.g)
  let first := chain.h + sumE + choice + constant + word
  let sumA := rotateRight chain.a 2 ^^^ rotateRight chain.a 13 ^^^ rotateRight chain.a 22
  let majority := (chain.a &&& chain.b) ^^^ (chain.a &&& chain.c) ^^^ (chain.b &&& chain.c)
  ⟨first + sumA + majority, chain.a, chain.b, chain.c, chain.d + first, chain.e, chain.f,
    chain.g⟩

def nextWord (schedule : Array UInt32) : UInt32 :=
  let back (count : Nat) := schedule.getD (schedule.size - count) 0
  let near := rotateRight (back 2) 17 ^^^ rotateRight (back 2) 19 ^^^ (back 2 >>> 10)
  let far := rotateRight (back 15) 7 ^^^ rotateRight (back 15) 18 ^^^ (back 15 >>> 3)
  near + back 7 + far + back 16

def extend : Nat → Array UInt32 → Array UInt32
  | 0, schedule => schedule
  | count + 1, schedule => extend count (schedule.push (nextWord schedule))

/-- The 64 words of a block: 16 of the message and 48 made from them. -/
def scheduleOf (message : ByteArray) (block : Nat) : Array UInt32 :=
  extend 48 ((Array.range 16).map (fun word => paddedWord message (64 * block + 4 * word)))

def compress (message : ByteArray) (chain : Chain) (block : Nat) : Chain :=
  let mixed := (constants.zip (scheduleOf message block).toList).foldl
    (fun chain pair => round chain pair.1 pair.2) chain
  chain.add mixed

/-- The chain after the blocks from a number on. -/
def compressAll (message : ByteArray) (chain : Chain) (block : Nat) : Nat → Chain
  | 0 => chain
  | count + 1 => compressAll message (compress message chain block) (block + 1) count

/-! ## Writing -/

/-- The digits of a number below 16 to the power of `count`. -/
def hexDigits : Nat → Nat → List Char
  | 0, _ => []
  | count + 1, value => hexDigits count (value / 16) ++ [Nat.digitChar (value % 16)]

/-- The digest of a message: eight words of eight lower-case digits each. -/
def ofBytes (message : ByteArray) : String :=
  String.ofList ((compressAll message .initial 0 (blockCount message)).words.flatMap
    (fun word => hexDigits 8 word.toNat))

/-- The digest of a text in UTF-8. -/
def ofText (text : String) : String :=
  ofBytes text.toUTF8

end FactoryProxy.Digest
