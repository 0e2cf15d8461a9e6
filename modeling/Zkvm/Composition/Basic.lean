import Zkvm.Contract.Basic
import Zkvm.Json.Fields

/-!
# Composing contracts

Two contracts can be composed where they speak of a common name.  A contract is written to a file
either with its assumptions in front and a mark of its guarantee at the end, or with its constraints
alone.
-/
set_option autoImplicit false

namespace Zkvm.Contract

def shared (first second : Contract) : List String :=
  first.names.filter second.names.contains

def composesWith (first second : Contract) : Bool :=
  !(first.shared second).isEmpty

/-- The assumptions, each in parentheses, the constraints, and the mark of the guarantee. -/
def guardedStatement (contract : Contract) : String :=
  Formula.joinTexts (contract.assumptions.map (fun assumption => s!"({assumption})") ++
    contract.constraints ++
    ["guarantee=1"])

/-- A statement, unless it is too long for the contract. -/
def within (contract : Contract) (statement : String) : Except Failure String :=
  if contract.maxLength < statement.length then .error (.compositionTooLong statement.length)
  else .ok statement

def guaranteesText (contract : Contract) : String :=
  ", ".intercalate contract.guarantees

def guardedText (contract : Contract) : Except Failure String :=
  (contract.within contract.guardedStatement).map fun statement =>
    s!"# Contract: {contract.name}\n# Assumptions: " ++ ", ".intercalate contract.assumptions ++
      s!"\n# Guarantees: {contract.guaranteesText}\n\nsolve {statement}\n\nquit"

def plainText (contract : Contract) : Except Failure String :=
  (contract.within (Formula.joinTexts contract.constraints)).map fun statement =>
    s!"# Contract: {contract.name}\n# Guarantees: {contract.guaranteesText}\n\n" ++
      s!"solve {statement}\n\nquit"

def termFields (contract : Contract) : List (String × Json) := [
  ("assumptions", .texts contract.assumptions), ("guarantees", .texts contract.guarantees),
  ("variables", .textSet contract.names)]

def composedFields (contract : Contract) : List (String × Json) := [
  ("contract", .obj ([("name", .str contract.name)] ++ contract.termFields ++
    [("max_chars", .int contract.maxLength)])),
  ("constraints", .texts contract.constraints)]

def ofComposed (record : Json) : Contract :=
  let terms := record.field "contract"
  { name := (terms.field "name").toText
    assumptions := (terms.field "assumptions").toTexts
    guarantees := (terms.field "guarantees").toTexts
    names := (terms.field "variables").toTexts
    constraints := (record.field "constraints").toTexts
    maxLength := ((terms.get? "max_chars").map Json.toInt).getD 700 }

end Zkvm.Contract

namespace Zkvm.Composition

def laterPairs {α : Type} : List α → List (α × α)
  | [] => []
  | first :: rest => rest.map (fun later => (first, later)) ++ laterPairs rest

end Zkvm.Composition
