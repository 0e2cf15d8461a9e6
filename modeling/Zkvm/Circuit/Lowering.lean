import Zkvm.Circuit.Basic
import Zkvm.Failure
import Zkvm.Text.Case
import Zkvm.Text.Search

/-!
# Lowering constraints to clauses on bits

A sum of two variables becomes a chain of full adders, a difference a chain with the complement of
its second operand, and a product the sums of its three lowest columns with zeros above.  Which of
them an arithmetic constraint means is read off the signs in its expression.
-/
set_option autoImplicit false

namespace Zkvm.Circuit

open Formula
open Term (wire)

def assign (target row : String) (width : Int) : List Clause :=
  (places width).map fun (i : Nat) => .wire target i (wire row i)

/-- `c` is the sum of `a` and `b` modulo two to the width of `a`. -/
def addition (a b c : Variable) : List Clause :=
  additionChain a.name b.name a.width ++ assign c.name "s" a.width

/-- `c` is to be the difference of `a` and `b`. -/
def subtraction (a b c : Variable) : List Clause :=
  complement b.name a.width ++ subtractionChain a.name a.width ++ assign c.name "s" a.width

/-- The sums of the three lowest columns, as far as the width has them. -/
def columns (width : Int) : List Clause :=
  [.define "m0" (.var "p00")] ++
    (if 1 < width then [.define "m1" (.group (.var "p01" ^^^ .var "p10"))] else []) ++
    (if 2 < width then [
      .define "c10" (.group (.var "p01" &&& .var "p10")),
      .define "m2" (.group (.var "p02" ^^^ .var "p11" ^^^ .var "p20" ^^^ .var "c10"))] else [])

/-- `c` has the three lowest bits of the product, and zeros above. -/
def multiplication (a b c : Variable) : List Clause :=
  let width := a.width
  partialProducts a.name b.name width ++ columns width ++
    assign c.name "m" (if width < 3 then width else 3) ++
    ((places width).filter fun (i : Nat) => decide (3 ≤ i)).map fun (i : Nat) =>
      .fixWire c.name i false

def ofThree (operation : String) (relation : Variable → Variable → Variable → List Clause) :
    List Variable → Except Failure (List Clause)
  | [a, b, c] => .ok (relation a b c)
  | _ => .error (.notThreeVariables operation)

def lowerAddition : List Variable → Except Failure (List Clause) :=
  ofThree "Addition" addition

def lowerMultiplication : List Variable → Except Failure (List Clause) :=
  ofThree "Multiplication" multiplication

def lowerSubtraction : List Variable → Except Failure (List Clause) :=
  ofThree "Subtraction" subtraction

def lowerArithmetic (constraint : Constraint) : Except Failure (List Clause) :=
  let expression := constraint.expression
  if Text.mentions expression "+" &&
    Text.mentions expression "mod" then lowerAddition constraint.vars
  else if Text.mentions expression "*" then lowerMultiplication constraint.vars
  else if Text.mentions expression "-" then lowerSubtraction constraint.vars
  else .error (.unknown "arithmetic operation" expression)

/-- Chooses one of four cells of two bits by an address of two bits. -/
def loadClauses : List Clause :=
  let addr0 : Term := .var "addr0"
  let addr1 : Term := .var "addr1"
  let value (bit : Nat) : Term := .group (Term.joined .or ((List.range 4).map fun (i : Nat) =>
    .group (wire "sel" i &&& .var s!"m{i}{bit}")))
  [.define "sel0" (.group (addr0.flipped &&& addr1.flipped)),
    .define "sel1" (.group (addr0 &&& addr1.flipped)),
    .define "sel2" (.group (addr0.flipped &&& addr1)), .define "sel3" (.group (addr0 &&& addr1)),
    .define "val0" (value 0), .define "val1" (value 1)]

/-- What stands for a store. -/
def storeClauses : List Clause :=
  [.fix "store_placeholder" true]

def lowerMemory (constraint : Constraint) : Except Failure (List Clause) :=
  let expression := Text.lower constraint.expression
  if Text.mentions expression "load" then .ok loadClauses
  else if Text.mentions expression "store" then .ok storeClauses
  else .error (.unknown "memory operation" constraint.expression)

def lower (constraint : Constraint) : Except Failure (List Line) :=
  match constraint.kind with
  | .arithmetic => (lowerArithmetic constraint).map (·.map Line.clause)
  | .boolean => .ok [.given constraint.expression]
  | .memory => (lowerMemory constraint).map (·.map Line.clause)
  | kind => .error (.unknown "constraint type" s!"ConstraintType.{kind.name}")

/-- The lines of all constraints of a module, up to the first that cannot be lowered. -/
def lowerAll (constraints : List Constraint) : Except Failure (List Line) :=
  match constraints with
  | [] => .ok []
  | first :: rest =>
    match lower first with
    | .error failure => .error failure
    | .ok lines => (lowerAll rest).map (lines ++ ·)

end Zkvm.Circuit
