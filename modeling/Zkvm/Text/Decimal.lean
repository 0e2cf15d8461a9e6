/-!
# Decimal text of binary fractions

Two ways to write a double-precision number: with the fewest digits that read back as the same
number, and rounded to a fixed number of places.  Both start from the exact value of the number as a
quotient of two natural numbers, so that no intermediate rounding takes place.
-/
set_option autoImplicit false

namespace Zkvm.Text

/-- A finite double: `mantissa * 2 ^ exponent`, with its sign kept apart so that zero has two
forms. -/
structure Binary where
  negative : Bool
  mantissa : Nat
  exponent : Int

namespace Binary

def ofFloat? (x : Float) : Option Binary :=
  let bits : Nat := x.toBits.toNat
  let negative : Bool := bits / Nat.pow 2 63 = 1
  let field : Nat := bits / Nat.pow 2 52 % 2048
  let fraction : Nat := bits % Nat.pow 2 52
  if field = 2047 then none
  else if field = 0 then some ⟨negative, fraction, -1074⟩
  else some ⟨negative, Nat.pow 2 52 + fraction, (field : Int) - 1075⟩

/-- The magnitude, scaled by four, over its denominator scaled by four: quarters of a unit in the
last binary place are whole numbers here. -/
def quarters (b : Binary) : Nat × Nat :=
  (4 * b.mantissa * Nat.pow 2 b.exponent.toNat, 4 * Nat.pow 2 (-b.exponent).toNat)

end Binary

/-- The largest power of ten that does not exceed `num / den`, found near the power of two that
does. -/
def decimalExponent (num den : Nat) : Int :=
  let guess := ((num.log2 : Int) - den.log2) * 30103 / 100000
  let fits (e : Int) : Bool := den * Nat.pow 10 e.toNat ≤ num * Nat.pow 10 (-e).toNat
  ([guess + 2, guess + 1, guess, guess - 1].find? fits).getD (guess - 2)

/-- A decimal number: `digits` read as a whole number, with the first digit at the place `10 ^
lead`. -/
structure Digits where
  value : Nat
  lead : Int

/-- The numbers that round to a given double: between `low` and `high` over the common denominator
`den`, the ends included if `closed`. -/
structure Interval where
  low : Nat
  high : Nat
  den : Nat
  closed : Bool

namespace Interval

def ofBinary (b : Binary) : Interval :=
  let scale := Nat.pow 2 b.exponent.toNat
  let below := if b.mantissa = Nat.pow 2 52 ∧ b.exponent ≠ -1074 then 1 else 2
  { low := (4 * b.mantissa - below) * scale
    high := (4 * b.mantissa + 2) * scale
    den := b.quarters.2
    closed := b.mantissa % 2 = 0 }

def contains (range : Interval) (value : Nat) (place : Int) : Bool :=
  let here := value * Nat.pow 10 place.toNat * range.den
  let low := range.low * Nat.pow 10 (-place).toNat
  let high := range.high * Nat.pow 10 (-place).toNat
  if range.closed then low ≤ here && here ≤ high else low < here && here < high

end Interval

/-- The decimal of `count` digits in the interval of `b` that is nearest to `b`, if there is one; of
two equally near ones the even one. -/
def digitsOfLength? (b : Binary) (count : Nat) : Option Digits :=
  let (num, den) := b.quarters
  let lead := decimalExponent num den
  let place := lead - count + 1
  let scaled := num * Nat.pow 10 (-place).toNat
  let unit := den * Nat.pow 10 place.toNat
  let down := scaled / unit
  let range := Interval.ofBinary b
  let remainder := 2 * (scaled % unit)
  let downFits := range.contains down place
  let upFits := range.contains (down + 1) place
  let preferDown := remainder < unit || (remainder = unit && down % 2 = 0)
  let chosen :=
    if downFits && (preferDown || !upFits) then some down
    else if upFits then some (down + 1)
    else none
  chosen.map fun value =>
    if value = Nat.pow 10 count then ⟨value / 10, lead + 1⟩ else ⟨value, lead⟩

/-- The fewest digits that read back as the same double; seventeen always do. -/
def shortestDigits (b : Binary) : Digits :=
  (((List.range 17).findSome? fun i => digitsOfLength? b (i + 1))).getD ⟨0, 0⟩

/-- How a double is written: where positional notation ends, and the words for what is not
finite. -/
structure NumberStyle where
  leastLead : Int
  mostLead : Int
  exponentWidth : Nat
  notANumber : String
  infinity : String

def padZeros (width : Nat) (text : String) : String :=
  String.ofList (List.replicate (width - text.length) '0') ++ text

def trimZeros (digits : List Char) : List Char :=
  (digits.reverse.dropWhile (· == '0')).reverse

namespace Digits

def positional (d : Digits) : String :=
  let digits := trimZeros (toString d.value).toList
  if d.lead < 0 then
    "0." ++ String.ofList (List.replicate (-d.lead - 1).toNat '0') ++ String.ofList digits
  else
    let whole := d.lead.toNat + 1
    let before := digits.take whole ++ List.replicate (whole - digits.length) '0'
    let after := digits.drop whole
    String.ofList before ++ "." ++ (if after.isEmpty then "0" else String.ofList after)

def scientific (style : NumberStyle) (d : Digits) : String :=
  let digits := trimZeros (toString d.value).toList
  let after := digits.drop 1
  let mark := if d.lead < 0 then "e-" else "e+"
  String.ofList (digits.take 1) ++ (if after.isEmpty then "" else "." ++ String.ofList after) ++
    mark ++ padZeros style.exponentWidth (toString d.lead.natAbs)

end Digits

def shortest (style : NumberStyle) (x : Float) : String :=
  match Binary.ofFloat? x with
  | none =>
    if x.isNaN then style.notANumber else (if x < 0 then "-" else "") ++ style.infinity
  | some b =>
    let sign := if b.negative then "-" else ""
    if b.mantissa = 0 then sign ++ "0.0"
    else
      let d := shortestDigits b
      sign ++ (if style.leastLead ≤ d.lead ∧ d.lead ≤ style.mostLead then d.positional
        else d.scientific style)

/-- The nearest whole number to `num / den`; a half goes to the even neighbour. -/
def roundHalfEven (num den : Nat) : Nat :=
  let down := num / den
  let remainder := 2 * (num % den)
  if remainder < den || (remainder = den && down % 2 = 0) then down else down + 1

def pointed (places value : Nat) : String :=
  if places = 0 then toString value
  else
    let digits := padZeros (places + 1) (toString value)
    String.ofList (digits.toList.take (digits.length - places)) ++ "." ++
      String.ofList (digits.toList.drop (digits.length - places))

def fixed (places : Nat) (x : Float) : String :=
  match Binary.ofFloat? x with
  | none => if x.isNaN then "nan" else if x < 0 then "-inf" else "inf"
  | some b =>
    let (num, den) := b.quarters
    (if b.negative then "-" else "") ++ pointed places (roundHalfEven (num * Nat.pow 10 places) den)

def exactly (count : Nat) : Float.Model.UnpackedFloat :=
  if positive : 0 < count then .finite .positive count 0 positive else .zero .positive

/-- The double nearest to `num / den`, rounded once. -/
def nearestQuotient (num den : Nat) : Float :=
  .ofModel (.pack (.div .binary64 (exactly num) (exactly den)))

def percent (part whole : Nat) : Float :=
  nearestQuotient part whole * 100.0

def plainNumber : NumberStyle := ⟨-4, 15, 2, "nan", "inf"⟩

def grouped (n : Nat) : String :=
  let rec commas : Nat → List Char → List Char
    | _, [] => []
    | i, c :: rest => if i = 3 then ',' :: c :: commas 1 rest else c :: commas (i + 1) rest
  String.ofList (commas 0 (toString n).toList.reverse).reverse

def groupedInt (n : Int) : String :=
  (if n < 0 then "-" else "") ++ grouped n.natAbs

end Zkvm.Text
