import Zkvm.Formula.Chain

/-!
# Entries of lookup tables as clauses

An entry says that an operation on `a` and `b` gives an expected value.  Its clauses fix the bits of
the operands, compute the result bit by bit, compare every bit with the expected one, and gather the
comparisons in the name `result`.  Operands and expected value always have eight bits; the width of
the computation is a parameter.
-/
set_option autoImplicit false

namespace Zkvm.Lookup

open Formula
open Term (wire joined)

inductive Operation where
  | and
  | or
  | xor
  | add
  | sub
  | mul
  | shl
  | shr

namespace Operation

def name : Operation → String
  | .and => "and"
  | .or => "or"
  | .xor => "xor"
  | .add => "add"
  | .sub => "sub"
  | .mul => "mul"
  | .shl => "shl"
  | .shr => "shr"

def all : List Operation := [.and, .or, .xor, .add, .sub, .mul, .shl, .shr]

/-- The connective of an operation that works on every bit alone. -/
def gate? : Operation → Option Gate
  | .and => some .and
  | .or => some .or
  | .xor => some .xor
  | _ => none

end Operation

/-- True if a name has the expected value; no negation is used. -/
def check (name : String) (expected : Bool) : Term :=
  if expected then .var name else (Term.var name).flipped

def checks (expected : Int) (name : String) (width : Int) : List Term :=
  (places width).map fun (i : Nat) => check s!"{name}{i}" (bitOf expected i)

/-- Names the eight checks and gathers as many of them as the width says. -/
def verify (expected : Int) (name : String) (width : Int) : List Clause :=
  ((checks expected name 8).zipIdx.map fun (term, i) => .wire "t" i term) ++
    [.define "result" (.group (joined .and ((places width).map fun (i : Nat) => wire "t" i)))]

def operands (a : Int) (second : String) (b : Int) : List Clause :=
  fixBits a "a" 8 ++ fixBits b second 8

def bitwise (gate : Gate) (width : Int) : List Clause :=
  (places width).map fun (i : Nat) => .wire "r" i (.group (.gate gate (wire "a" i) (wire "b" i)))

/-- Sums of the three lowest columns; no column is checked. -/
def productColumns : List Clause := [
  .define "m0" (.var "p00"),
  .define "m1" (.group (.var "p01" ^^^ .var "p10")),
  .define "m2" (.group (.var "p02" ^^^ .var "p11" ^^^ .var "p20")),
  .fix "result" true]

/-- Every bit comes from `count` places below, or is zero. -/
def shiftUp (count width : Int) : List Clause :=
  (places width).map fun (i : Nat) =>
    .wire "r" i (if count ≤ i then wire "a" (i - count) else .bit false)

/-- Every bit comes from `count` places above, or is zero. -/
def shiftDown (count width : Int) : List Clause :=
  (places width).map fun (i : Nat) =>
    .wire "r" i (if i + count < width then wire "a" (i + count) else .bit false)

/-- An entry of an operation on single bits; one of another operation computes nothing. -/
def encodeBitwise (op : Operation) (width a b expected : Int) : List Clause :=
  let computed := match op.gate? with
    | some gate => bitwise gate width
    | none => []
  operands a "b" b ++ computed ++ verify expected "r" width

def encode (op : Operation) (width a b expected : Int) : List Clause :=
  match op with
  | .and | .or | .xor => encodeBitwise op width a b expected
  | .add => operands a "b" b ++ additionChain "a" "b" width ++ verify expected "s" width
  | .sub =>
    operands a "b" b ++ complement "b" width ++ subtractionChain "a" width ++
      verify expected "s" width
  | .mul => operands a "b" b ++ partialProducts "a" "b" width ++ productColumns
  | .shl => operands a "sh" b ++ shiftUp b width ++ verify expected "r" width
  | .shr => operands a "sh" b ++ shiftDown b width ++ verify expected "r" width

end Zkvm.Lookup
