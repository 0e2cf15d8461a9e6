import Zkvm.Formula.Chain
import Zkvm.Json.Basic

/-!
# Circuits

A circuit module declares variables of some bit width and constrains them.  A constraint is an
arithmetic relation of three variables, a formula given as it is, or an access to memory; a module
may depend on others.
-/
set_option autoImplicit false

namespace Zkvm.Circuit

inductive ConstraintKind where
  | arithmetic
  | boolean
  | memory
  | control
  | folding

def ConstraintKind.name : ConstraintKind → String
  | .arithmetic => "ARITHMETIC"
  | .boolean => "BOOLEAN"
  | .memory => "MEMORY"
  | .control => "CONTROL"
  | .folding => "FOLDING"

def ConstraintKind.all : List ConstraintKind := [.arithmetic, .boolean, .memory, .control, .folding]

structure Variable where
  name : String
  width : Int
  isInput : Bool := false
  isOutput : Bool := false

structure Constraint where
  kind : ConstraintKind
  vars : List Variable
  expression : String
  metadata : Json := .null

structure Module where
  name : String
  vars : List Variable
  constraints : List Constraint
  dependencies : Option (List String) := none

/-- A line of a lowered module: a clause that was made for it, or a formula taken over as it was. -/
inductive Line where
  | clause (made : Clause)
  | given (text : String)

def Line.text : Line → String
  | .clause made => made.text
  | .given text => text

end Zkvm.Circuit
