import Zkvm.Formula.Basic
import Zkvm.Text.Case
import Zkvm.Workspace.Action

/-!
# Contracts

A contract says what a part of an operation may rely on, what it provides, and the constraints that
hold in between.  An operation is decomposed into parts, each with a contract short enough for the
solver and a role that is noted in its file; the decomposition holds the texts of all files.
-/
set_option autoImplicit false

namespace Zkvm

structure Contract where
  name : String
  assumptions : List String
  guarantees : List String
  /-- The names that the constraints are about; their order has no meaning. -/
  names : List String
  constraints : List String
  /-- The longest statement that is accepted. -/
  maxLength : Int := 700

namespace Contract

def expression (contract : Contract) : Except Failure String :=
  let text := Formula.joinTexts (contract.assumptions ++ contract.constraints)
  if contract.maxLength < text.length then .error (.contractTooLong contract.name text.length)
  else .ok text

/-- A contract whose constraints are given by clauses, about the names that they define. -/
def ofClauses (name : String) (assumptions guarantees : List String) (clauses : List Clause) :
    Contract :=
  { name, assumptions, guarantees, names := Formula.definedNames clauses
    constraints := clauses.map Clause.text }

end Contract

/-- How the role of a part is noted in its file. -/
class Role (ρ : Type) where
  remark : ρ → String

structure Part (ρ : Type) where
  name : String
  contract : Contract
  role : ρ

def truthWord (value : Bool) : String :=
  if value then "True" else "False"

def Part.fileText {ρ : Type} [Role ρ] (part : Part ρ) : Except Failure String :=
  part.contract.expression.map fun statement =>
    s!"# {part.name}\n" ++ Role.remark part.role ++ "# Guarantees: " ++
      ", ".intercalate part.contract.guarantees ++ s!"\n\nsolve {statement}\n\nquit"

abbrev Plan (ρ : Type) := List (String × Part ρ)

structure Decomposition (ρ : Type) where
  operation : String
  parts : List (Part ρ)
  /-- Names of files with their texts. -/
  files : List (String × String)

namespace Decomposition

variable {ρ : Type}

/-- Writes out the files of a plan, unless a statement is too long. -/
def ofPlan [Role ρ] (operation : String) (plan : Plan ρ) : Except Failure (Decomposition ρ) := do
  let files ← plan.mapM fun (stem, part) => part.fileText.map fun text => (stem ++ ".tau", text)
  pure { operation, parts := plan.map (·.2), files }

def constraintCount (d : Decomposition ρ) : Nat :=
  (d.parts.map fun part => part.contract.constraints.length).foldr (· + ·) 0

def saveFiles (directory : String) (operation : String) (d : Decomposition ρ) : Action String := do
  let place := Path.join directory (Text.lower operation)
  Action.makeDirectories place
  d.files.forM fun (name, text) => Action.writeFile (Path.join place name) text
  pure place

def summary (title : String) (d : Decomposition ρ) : String :=
  Text.lines [s!"# {d.operation} {title} Summary", "", s!"Components: {d.parts.length}",
    s!"Total Constraints: {d.constraintCount}", "", "## Components:", ""] ++
    String.join
      (d.parts.map fun part => s!"- {part.name}: {part.contract.constraints.length} constraints\n")

def save (title directory : String) (d : Decomposition ρ) : Action Unit := do
  let place ← d.saveFiles directory d.operation
  Action.writeFile (Path.join place "summary.md") (d.summary title)

end Decomposition

/-- Decomposes operations one after another; the results stand under the names that were given. -/
def decomposeAll {α : Type} (decompose : String → Except Failure α) (operations : List String) :
    Except Failure (List (String × α)) :=
  operations.foldlM (fun results operation => do
    pure (Json.put operation (← decompose operation) results)) []

end Zkvm
