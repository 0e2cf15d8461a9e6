import Zkvm.Text.Decimal

/-!
# A digest of 256 bits

The hash function SHA-256: the message is padded to blocks of sixteen words, and each block is mixed
into a chain of eight words in sixty-four rounds.
-/
set_option autoImplicit false

namespace Zkvm.Digest

/-- The constants of the rounds: the first bits of the fractions of the cube roots of the first
primes. -/
def roundConstants : List UInt32 := [
  0x428a2f98, 0x71374491, 0xb5c0fbcf, 0xe9b5dba5, 0x3956c25b, 0x59f111f1, 0x923f82a4, 0xab1c5ed5,
  0xd807aa98, 0x12835b01, 0x243185be, 0x550c7dc3, 0x72be5d74, 0x80deb1fe, 0x9bdc06a7, 0xc19bf174,
  0xe49b69c1, 0xefbe4786, 0x0fc19dc6, 0x240ca1cc, 0x2de92c6f, 0x4a7484aa, 0x5cb0a9dc, 0x76f988da,
  0x983e5152, 0xa831c66d, 0xb00327c8, 0xbf597fc7, 0xc6e00bf3, 0xd5a79147, 0x06ca6351, 0x14292967,
  0x27b70a85, 0x2e1b2138, 0x4d2c6dfc, 0x53380d13, 0x650a7354, 0x766a0abb, 0x81c2c92e, 0x92722c85,
  0xa2bfe8a1, 0xa81a664b, 0xc24b8b70, 0xc76c51a3, 0xd192e819, 0xd6990624, 0xf40e3585, 0x106aa070,
  0x19a4c116, 0x1e376c08, 0x2748774c, 0x34b0bcb5, 0x391c0cb3, 0x4ed8aa4a, 0x5b9cca4f, 0x682e6ff3,
  0x748f82ee, 0x78a5636f, 0x84c87814, 0x8cc70208, 0x90befffa, 0xa4506ceb, 0xbef9a3f7, 0xc67178f2]

structure Chain where
  a : UInt32
  b : UInt32
  c : UInt32
  d : UInt32
  e : UInt32
  f : UInt32
  g : UInt32
  h : UInt32

namespace Chain

/-- The first bits of the fractions of the square roots of the first primes. -/
def start : Chain :=
  ⟨0x6a09e667, 0xbb67ae85, 0x3c6ef372, 0xa54ff53a,
    0x510e527f, 0x9b05688c, 0x1f83d9ab, 0x5be0cd19⟩

def add (x y : Chain) : Chain :=
  ⟨x.a + y.a, x.b + y.b, x.c + y.c, x.d + y.d, x.e + y.e, x.f + y.f, x.g + y.g, x.h + y.h⟩

def words (x : Chain) : List UInt32 :=
  [x.a, x.b, x.c, x.d, x.e, x.f, x.g, x.h]

end Chain

def rotateRight (x : UInt32) (count : UInt32) : UInt32 :=
  (x >>> count) ||| (x <<< (32 - count))

def round (x : Chain) (constant word : UInt32) : Chain :=
  let mixE := rotateRight x.e 6 ^^^ rotateRight x.e 11 ^^^ rotateRight x.e 25
  let choice := (x.e &&& x.f) ^^^ ((x.e ^^^ 0xffffffff) &&& x.g)
  let first := x.h + mixE + choice + constant + word
  let mixA := rotateRight x.a 2 ^^^ rotateRight x.a 13 ^^^ rotateRight x.a 22
  let majority := (x.a &&& x.b) ^^^ (x.a &&& x.c) ^^^ (x.b &&& x.c)
  ⟨first + mixA + majority, x.a, x.b, x.c, x.d + first, x.e, x.f, x.g⟩

/-- The next word of a schedule, whose latest word comes first. -/
def nextWord (words : List UInt32) : UInt32 :=
  let word (back : Nat) := words.getD (back - 1) 0
  let early := rotateRight (word 15) 7 ^^^ rotateRight (word 15) 18 ^^^ (word 15 >>> 3)
  let late := rotateRight (word 2) 17 ^^^ rotateRight (word 2) 19 ^^^ (word 2 >>> 10)
  late + word 7 + early + word 16

def extend : Nat → List UInt32 → List UInt32
  | 0, words => words
  | more + 1, words => extend more (nextWord words :: words)

def schedule (block : List UInt32) : List UInt32 :=
  (extend 48 block.reverse).reverse

def compress (x : Chain) (block : List UInt32) : Chain :=
  x.add ((roundConstants.zip (schedule block)).foldl
    (fun y (constant, word) => round y constant word) x)

def wordOf (bytes : List UInt8) : UInt32 :=
  bytes.foldl (fun word byte => (word <<< 8) ||| byte.toUInt32) 0

def groups {α : Type} (size : Nat) : Nat → List α → List (List α)
  | 0, _ => []
  | count + 1, items => items.take size :: groups size count (items.drop size)

def lengthBytes (bits : Nat) : List UInt8 :=
  ((List.range 8).reverse).map fun place => UInt8.ofNat (bits / Nat.pow 256 place % 256)

/-- The message with a mark, zeros and its length, so that it fills whole blocks. -/
def pad (message : List UInt8) : List UInt8 :=
  message ++ [0x80] ++ List.replicate ((119 - message.length % 64) % 64) 0 ++
    lengthBytes (8 * message.length)

def digest (message : List UInt8) : Chain :=
  let padded := pad message
  (groups 64 (padded.length / 64) padded).foldl
    (fun x block => compress x ((groups 4 16 block).map wordOf)) Chain.start

def hexWord (word : UInt32) : String :=
  Text.padZeros 8 (String.ofList (Nat.toDigits 16 word.toNat))

def hex (message : List UInt8) : String :=
  String.join ((digest message).words.map hexWord)

end Zkvm.Digest
