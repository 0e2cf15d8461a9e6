import Zkvm.Formula.Basic
import Zkvm.Json.Fields
import Zkvm.Json.Shown

/-!
# Test cases

A test case gives values to inputs and to expected outputs.  Its constraints say each value: a truth
value as a bit, a whole number bit by bit from the lowest, anything else by its text.  Constraints
that are too long for one statement are split over several.
-/
set_option autoImplicit false

namespace Zkvm.Testing

structure Case where
  name : String
  description : String
  instruction : String
  inputs : List (String × Json)
  expected : List (String × Json)
  edgeCase : Bool := false
  performanceTarget : Json := .null

/-- The binary digits of a number from the lowest; zero has one. -/
def lowBits (n : Nat) : List Bool :=
  if n < 2 then [n == 1] else (n % 2 == 1) :: lowBits (n / 2)
termination_by n
decreasing_by omega

def digit (b : Bool) : Char :=
  if b then '1' else '0'

def padEight (digits : List Char) : List Char :=
  digits ++ List.replicate (8 - digits.length) '0'

/-- The digits of a whole number from the lowest, at least eight.  The digits of a negative number
are those of its absolute value, followed by a mark. -/
def digits (value : Int) : List Char :=
  padEight ((lowBits value.natAbs).map digit ++ if value < 0 then ['b'] else [])

def valueConstraints (name : String) : Json → List String
  | .bool b => [s!"{name} = {digit b}"]
  | .int n => (digits n).zipIdx.map fun (d, i) => s!"{name}_{i} = {d}"
  | other => [s!"{name} = {other.shown}"]

namespace Case

def constraints (test : Case) : List String :=
  (test.inputs.flatMap fun (name, value) => valueConstraints name value) ++
    test.expected.flatMap fun (name, value) => valueConstraints (name ++ "_out") value

end Case

/-- The longest text of constraints in one statement. -/
def maxLength : Nat := 650

/-- Fills statements one after another: `current` is being filled and counts as `length`
characters. -/
def splitFrom : List String → Nat → List String → List (List String)
  | current, _, [] => if current.isEmpty then [] else [current]
  | current, length, constraint :: rest =>
    if maxLength < length + constraint.length + 10 then current ::
      splitFrom [constraint] constraint.length rest
    else splitFrom (current ++ [constraint]) (length + constraint.length + 4) rest

def statementText (constraints : List String) : String :=
  s!"solve {Formula.joinTexts constraints}\nquit"

def statementsText (statements : List (List String)) : String :=
  "\n\n".intercalate (statements.map statementText)

def statements (constraints : List String) : List (List String) :=
  if maxLength < (Formula.joinTexts constraints).length then splitFrom [] 0 constraints
  else [constraints]

def Case.text (test : Case) : String :=
  statementsText (statements test.constraints)

end Zkvm.Testing
