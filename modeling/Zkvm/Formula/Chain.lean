import Zkvm.Formula.Basic

/-!
# Chains of adders

Sums and differences of two rows of bits, with the result in `s` and the carries in `c`, and the
partial products of two rows.  The lowest place is always there, whatever the width.
-/
set_option autoImplicit false

namespace Zkvm.Formula

open Term (wire sum carry)

def additionChain (a b : String) (width : Int) : List Clause :=
  [.wire "s" 0 (.group (wire a 0 ^^^ wire b 0)), .wire "c" 0 (.group (wire a 0 &&& wire b 0))] ++
    (laterPlaces width).flatMap fun (i : Nat) =>
      let before := wire "c" (i - 1)
      [.wire "s" i (sum (wire a i) (wire b i) before),
        .wire "c" i (carry (wire a i) (wire b i) before)]

def nibbleChain (offset : Int) (carryIn : Option Term) : List Clause :=
  (List.range 4).flatMap fun (i : Nat) =>
    let place := offset + i
    let (a, b) := (wire "a" place, wire "b" place)
    match if i = 0 then carryIn else some (wire "c" (place - 1)) with
    | none => [.wire "s" place (.group (a ^^^ b)), .wire "c" place (.group (a &&& b))]
    | some before => [.wire "s" place (sum a b before), .wire "c" place (carry a b before)]

def complement (b : String) (width : Int) : List Clause :=
  (places width).map fun (i : Nat) => .wire "nb" i (wire b i).flipped

/-- The carry that the chain of a subtraction uses, where `n` is the complement of a bit. -/
def borrowCarry (a n before : Term) : Term :=
  .group (.group (a &&& .group (n ^^^ before)) ||| .group (.group (a ^^^ n) &&& before))

/-- Adds the row `nb`, with one carried in. -/
def subtractionChain (a : String) (width : Int) : List Clause :=
  [.wire "s" 0 (.group (wire a 0 ^^^ wire "nb" 0 ^^^ .bit true)),
    .wire "c" 0 (borrowCarry (wire a 0) (wire "nb" 0) (.bit true))] ++
    (laterPlaces width).flatMap fun (i : Nat) =>
      let before := wire "c" (i - 1)
      [.wire "s" i (sum (wire a i) (wire "nb" i) before),
        .wire "c" i (borrowCarry (wire a i) (wire "nb" i) before)]

/-- The partial products that fall within the width. -/
def partialProducts (a b : String) (width : Int) : List Clause :=
  (places width).flatMap fun (j : Nat) =>
    ((places width).filter fun (i : Nat) => (i + j : Int) < width).map fun (i : Nat) =>
      .define s!"p{j}{i}" (.group (wire a i &&& wire b j))

end Zkvm.Formula
