import Zkvm.Failure

/-!
# Whole numbers and doubles

A quantity is a whole number, which is exact, or a double.  Whole numbers are added and compared
exactly; beside a double a whole number counts as the double nearest to it, except in a comparison,
which is exact throughout.
-/
set_option autoImplicit false

namespace Zkvm

inductive Number where
  | whole (value : Int)
  | double (value : Float)

namespace Number

instance : Inhabited Number := ⟨.whole 0⟩

/-- The double nearest to a number, if there is one that is finite. -/
def toDouble : Number → Except Failure Float
  | .double x => .ok x
  | .whole n => if (Float.ofInt n).isInf then .error .beyondDoubles else .ok (Float.ofInt n)

def add : Number → Number → Except Failure Number
  | .whole a, .whole b => .ok (.whole (a + b))
  | a, b => do
    let x ← a.toDouble
    let y ← b.toDouble
    pure (.double (x + y))

def sum (numbers : List Number) : Except Failure Number :=
  numbers.foldlM add (.whole 0)

def dividedBy (count : Nat) : Number → Except Failure Float
  | .double x => if count = 0 then .error .divisionByZero else .ok (x / Float.ofNat count)
  | .whole n =>
    if count = 0 then .error .divisionByZero
    else
      let size := Text.nearestQuotient n.natAbs count
      .ok (if n < 0 then -size else size)

/-- How a whole number stands to a double, unless that is not a number. -/
def compareWhole (n : Int) (x : Float) : Option Ordering :=
  match Text.Binary.ofFloat? x with
  | none => if x.isNaN then none else some (if x < 0 then .gt else .lt)
  | some b =>
    let size : Int := b.mantissa * Nat.pow 2 b.exponent.toNat
    let scaled := n * (Nat.pow 2 (-b.exponent).toNat : Nat)
    some (compare scaled (if b.negative then -size else size))

def atMost : Number → Number → Bool
  | .whole a, .whole b => decide (a ≤ b)
  | .double a, .double b => decide (a ≤ b)
  | .whole a, .double b =>
    match compareWhole a b with
    | some order => order.isLE
    | none => false
  | .double a, .whole b =>
    match compareWhole b a with
    | some order => order.isGE
    | none => false

def fixed (places : Nat) (number : Number) : Except Failure String :=
  number.toDouble.map (Text.fixed places)

def json : Number → Json
  | .whole n => .int n
  | .double x => .float x

/-- A number; a truth value counts as one or zero. -/
def ofJson? : Json → Option Number
  | .int n => some (.whole n)
  | .bool b => some (.whole (if b then 1 else 0))
  | .float x => some (.double x)
  | _ => none

end Number

end Zkvm
