import Zkvm.Failure
import Zkvm.Formula.Basic

/-!
# Components

A component is a small statement for the solver with a name, what it assumes and what it guarantees.
It is written to a file only if its statement is short enough.
-/
set_option autoImplicit false

namespace Zkvm

structure Component where
  name : String
  constraints : List String
  assumptions : Option (List String) := none
  guarantees : Option (List String) := none

namespace Component

/-- The longest statement that is written. -/
def maxLength : Nat := 700

def statement (component : Component) : String :=
  Formula.joinTexts component.constraints

def remark (title : String) : Option (List String) → String
  | none | some [] => ""
  | some items => s!"# {title}: " ++ ", ".intercalate items ++ "\n"

def text (component : Component) : String :=
  s!"# Component: {component.name}\n" ++ remark "Assumptions" component.assumptions ++
    remark "Guarantees" component.guarantees ++ s!"\nsolve {component.statement}\n\nquit"

def fileText (component : Component) : Except Failure String :=
  if component.statement.length > maxLength then
    .error (.tooLong (some component.name) component.statement.length)
  else .ok component.text

/-- A component whose statement is given by clauses. -/
def ofClauses (name : String) (clauses : List Clause)
    (assumptions guarantees : Option (List String) := none) :
    Component :=
  ⟨name, clauses.map Clause.text, assumptions, guarantees⟩

def guaranteeing (name : String) (clauses : List Clause) (guarantees : List String) : Component :=
  ofClauses name clauses (some []) (some guarantees)

/-- Says that a name may have either value. -/
def eitherValue (name : String) : String :=
  s!"{name}=0|{name}=1"

def places (nibble : Int) : List Int :=
  [nibble * 4, nibble * 4 + 1, nibble * 4 + 2, nibble * 4 + 3]

/-- Sample values for the bits of a nibble: they alternate, and start with the parity of `start`. -/
def samples (name : String) (nibble start : Int) : List Clause :=
  (List.range 4).map fun (i : Nat) => .fixWire name (nibble * 4 + i) (Formula.odd (i + start))

/-- Sample values for two operands whose bits stand from `offset` on. -/
def operandSamples (nibble offset : Int) : List Clause :=
  (List.range 4).flatMap fun (i : Nat) =>
    [.fixWire "a" (offset + i) (Formula.odd (i + nibble)),
      .fixWire "b" (offset + i) (Formula.odd (i + nibble + 1))]

def eachNibble (component : Int → Component) : List Component :=
  (List.range 8).map fun (i : Nat) => component i

def eachPair (component : Int → Int → Component) : List Component :=
  (List.range 7).map fun (i : Nat) => component i (i + 1)

/-- Links a name to a numbered one of another component, which has the value zero on its own. -/
def link (name target source : String) : Component :=
  ofClauses name [.fix source false, .define target (.var source)] (some [eitherValue source])
    (some [s!"{target}={source}"])

def linkFour (name target source : String) : Component :=
  let four (f : Nat → String) := (List.range 4).map f
  { name
    constraints := four (fun i => s!"{source}{i}=0") ++ four (fun i => s!"{target}{i}={source}{i}")
    assumptions := some (four fun i => eitherValue s!"{source}{i}")
    guarantees := some (four fun i => s!"{target}{i}={source}{i}") }

def completion (name all complete : String) : Component :=
  guaranteeing name [.fix all true, .define complete (.var all)] [complete]

end Component

end Zkvm
