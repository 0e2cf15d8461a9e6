import Zkvm.Component.Basic

/-!
# Components of comparisons

Each comparison is shown at one pair of sample bits for each nibble; an aggregator gathers sample
results of four nibbles.
-/
set_option autoImplicit false

namespace Zkvm.Component

open Formula Term

def compareBits (operation : String) (a b : Bool) (result : Term → Term → Term) (n : Int) :
    Component :=
  guaranteeing s!"{operation}_nibble_{n}"
    [.fixWire "a" n a, .fixWire "b" n b,
      .wire operation n (.group (result (wire "a" n) (wire "b" n)))]
    [s!"{operation}{n}"]

def eqNibble (n : Int) : Component :=
  compareBits "eq" (odd n) (odd n) (fun a b => a &&& b) n

def neqNibble (n : Int) : Component :=
  compareBits "neq" (odd n) (odd (n + 1)) (fun a b => a ^^^ b) n

def ltNibble (n : Int) : Component :=
  compareBits "lt" false true (fun a b => a.flipped &&& b) n

def gtNibble (n : Int) : Component :=
  compareBits "gt" true false (fun a b => a &&& b.flipped) n

def lteNibble (n : Int) : Component :=
  compareBits "lte" (odd n) true (fun a b => a.flipped ||| b) n

def gteNibble (n : Int) : Component :=
  compareBits "gte" true (odd n) (fun a b => a ||| b.flipped) n

def four (name : String) (value : Bool) : List Clause :=
  (List.range 4).map fun (i : Nat) => .fixWire name i value

def fourWires (name : String) : List Term :=
  (List.range 4).map fun (i : Nat) => wire name i

def eqAggregator : Component :=
  guaranteeing "eq_aggregator"
    (four "eq" true ++ [.define "eqfinal" (.group (joined .and (fourWires "eq")))]) ["eqfinal"]

def neqAggregator : Component :=
  guaranteeing "neq_aggregator"
    (four "neq" false ++
      [.fix "neq3" true, .define "neqfinal" (.group (joined .or (fourWires "neq")))])
    ["neqfinal"]

/-- True if a part decides, or is equal and a later part decides. -/
def firstDecides (name : String) : Term :=
  let at' (i : Int) := wire name i
  let eq (i : Int) := wire "eq" i
  .group (at' 0 ||| .group (eq 0 &&& .group (at' 1 ||| .group (eq 1 &&&
    .group (at' 2 ||| .group (eq 2 &&& at' 3))))))

def orderAggregator (operation : String) : Component :=
  let parts := (List.range 4).flatMap fun (i : Nat) =>
    [Clause.fixWire operation i false, .fixWire "eq" i true]
  guaranteeing s!"{operation}_aggregator"
    (parts ++ [.fixWire operation 3 true, .fix "eq3" false,
      .define s!"{operation}final" (firstDecides operation)])
    [s!"{operation}final"]

def ltAggregator : Component := orderAggregator "lt"

def gtAggregator : Component := orderAggregator "gt"

/-- One of two results: a strict comparison or equality. -/
def weakAggregator (operation strict : String) : Component :=
  guaranteeing s!"{operation}_aggregator"
    [.fix strict false, .fix "eqres" true,
      .define s!"{operation}final" (.group (.var strict ||| .var "eqres"))]
    [s!"{operation}final"]

def lteAggregator : Component := weakAggregator "lte" "ltres"

def gteAggregator : Component := weakAggregator "gte" "gtres"

end Zkvm.Component
