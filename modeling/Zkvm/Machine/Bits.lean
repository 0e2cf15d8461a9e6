/-!
# Integers as bit patterns

An integer is read as an infinite row of bits in two's complement: a negative one ends in ones for
ever. `word` keeps the low thirty-two bits.  Conjunction, disjunction and exclusive or of two
integers act on every bit; each is reduced to natural numbers through the complement `-(n + 1)` of a
negative operand.
-/
set_option autoImplicit false

namespace Zkvm.Machine

/-- The low thirty-two bits, as a number from `0` to `2 ^ 32 - 1`. -/
def word (value : Int) : Int :=
  value % 4294967296

/-- The bits of `m` that are not bits of `n`. -/
def without (m n : Nat) : Nat :=
  m ^^^ (m &&& n)

def bitAnd : Int → Int → Int
  | .ofNat m, .ofNat n => .ofNat (m &&& n)
  | .ofNat m, .negSucc n => .ofNat (without m n)
  | .negSucc m, .ofNat n => .ofNat (without n m)
  | .negSucc m, .negSucc n => .negSucc (m ||| n)

def bitOr : Int → Int → Int
  | .ofNat m, .ofNat n => .ofNat (m ||| n)
  | .ofNat m, .negSucc n => .negSucc (without n m)
  | .negSucc m, .ofNat n => .negSucc (without m n)
  | .negSucc m, .negSucc n => .negSucc (m &&& n)

def bitXor : Int → Int → Int
  | .ofNat m, .ofNat n => .ofNat (m ^^^ n)
  | .ofNat m, .negSucc n => .negSucc (m ^^^ n)
  | .negSucc m, .ofNat n => .negSucc (m ^^^ n)
  | .negSucc m, .negSucc n => .ofNat (m ^^^ n)

def bit (value : Int) (i : Nat) : Int :=
  value / (Nat.pow 2 i : Nat) % 2

/-- The low five bits of a count, so that a word is shifted by less than its length. -/
def shiftCount (count : Int) : Nat :=
  (count % 32).toNat

def shiftLeft (value count : Int) : Int :=
  word (value * (Nat.pow 2 (shiftCount count) : Nat))

def shiftRight (value count : Int) : Int :=
  value / (Nat.pow 2 (shiftCount count) : Nat)

/-- Remainder of the magnitude by the prime `2 ^ 61 - 1`, with the sign of the value; `-1` is not
used and `-2` stands in its place. -/
def residue (value : Int) : Int :=
  let signed := value.sign * (value.natAbs % 2305843009213693951 : Nat)
  if signed = -1 then -2 else signed

/-- The eight nibbles of a word, the lowest first. -/
def nibbles (value : Int) : List Int :=
  (List.range 8).map fun i => value / (Nat.pow 16 i : Nat) % 16

end Zkvm.Machine
