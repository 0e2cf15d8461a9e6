import Zkvm.Contract.Instruction.Bitwise

/-!
# Contracts of comparisons

A nibble says whether its bits are equal and passes a borrow on; an aggregator combines what all
nibbles say.
-/
set_option autoImplicit false

namespace Zkvm.Contract.Instruction

open Term (wire joined)

def comparisonBorrow (nibble : Int) : List Clause :=
  if 0 < nibble then [.fixWire "bin" nibble false] else []

def equalBits (a b : Term) : Term :=
  .group (.group (a ^^^ b ^^^ .bit true) ||| .group (a.flipped ^^^ b.flipped ^^^ .bit true))

/-- What a nibble of a comparison says beside its inputs: which bits are equal, whether all are, and
the borrow that goes out. -/
def comparisonLogic (nibble : Int) : List Clause :=
  ((List.range 4).map fun (i : Nat) =>
    .wire "eq" i (equalBits (spaced "a" nibble i) (spaced "b" nibble i))) ++
    [.wire "neq" nibble (.group (wire "eq" 0 &&& wire "eq" 1 &&& wire "eq" 2 &&& wire "eq" 3)),
      .wire "bout" nibble (if 0 < nibble then wire "bin" nibble else .bit false)]

def comparisonNibble (nibble : Int) (operation : String) : Part Place where
  name := s!"{operation}_NIBBLE_{nibble}"
  contract := ofClauses s!"{Text.lower operation}_nibble_{nibble}" [s!"inputs_valid_{nibble}=1"]
    [s!"cmp_flags_{nibble}"] (spacedInputs nibble ++ comparisonBorrow nibble ++
      comparisonLogic nibble)
  role := { nibble, carryIn := decide (0 < nibble), carryOut := true }

def aggregatorInputs (nibbles : Int) : List Clause :=
  ((Formula.places nibbles).map fun (i : Nat) => .fixWire "nibble_eq" i false) ++
    [.fix "sign_diff" false, .fix "final_borrow" false]

def allEqual (nibbles : Int) : Term :=
  .group (joined .wideAnd ((Formula.places nibbles).map fun (i : Nat) => wire "nibble_eq" i))

/-- The result of a comparison; an unknown one has none. -/
def comparisonResult (nibbles : Int) (operation : String) : Option Term :=
  let borrow : Term := .var "final_borrow"
  match operation with
  | "EQ" => some (allEqual nibbles)
  | "NEQ" => some (.group (.gate .wideXor (allEqual nibbles) (.bit true)))
  | "LT" => some (.group (borrow ||| .var "sign_diff"))
  | "GT" => some (.group (borrow.flipped &&& (allEqual nibbles).flipped))
  | "LTE" => some (.group (borrow ||| allEqual nibbles))
  | "GTE" => some borrow.flipped
  | _ => none

def comparisonAggregator (nibbles : Int) (operation : String) : Part Place :=
  let word := Text.lower operation
  let result := (comparisonResult nibbles operation).map fun term => Clause.define "result" term
  let contract := ofClauses s!"{word}_result" ["all_nibbles_compared=1"] [s!"{word}_result_valid"]
    (aggregatorInputs nibbles ++ result.toList)
  single s!"{operation}_RESULT"
    { contract with names := Formula.definedNames (aggregatorInputs nibbles) ++ ["result"] }

def comparison (nibbles : Int) (operation : String) : Plan Place :=
  let word := Text.lower operation
  let name := Text.upper operation
  eachNibble nibbles (fun i => s!"{word}_nibble_{i}")
    (fun nibble => comparisonNibble nibble name) ++
    [(s!"{word}_result", comparisonAggregator nibbles name)]

end Zkvm.Contract.Instruction
