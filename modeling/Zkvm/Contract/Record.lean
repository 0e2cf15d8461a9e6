import Zkvm.Contract.Execution.Generator
import Zkvm.Contract.Instruction.Generator
import Zkvm.Contract.Memory.Generator
import Zkvm.Contract.Proving.Generator
import Zkvm.Json.Fields

/-!
# Records of contracts

Contracts, parts and decompositions as structured data.
-/
set_option autoImplicit false

namespace Zkvm

namespace Contract

def ofJson (record : Json) : Contract where
  name := (record.field "name").toText
  assumptions := (record.field "assumptions").toTexts
  guarantees := (record.field "guarantees").toTexts
  names := (record.field "variables").toTexts
  constraints := (record.field "constraints").toTexts
  maxLength := ((record.get? "max_chars").map Json.toInt).getD 700

def json (c : Contract) : Json := .obj [
  ("name", .str c.name), ("assumptions", .texts c.assumptions), ("guarantees", .texts c.guarantees),
  ("variables", .textSet c.names), ("constraints", .texts c.constraints),
  ("max_chars", .int c.maxLength)]

end Contract

/-- How a role is recorded. -/
class RoleRecord (ρ : Type) where
  fields : ρ → List (String × Json)
  ofJson : Json → ρ

instance : RoleRecord Contract.Instruction.Place where
  fields p :=
    [("nibble_index", .int p.nibble), ("carry_in", .bool p.carryIn),
      ("carry_out", .bool p.carryOut)]
  ofJson r :=
    ⟨(r.field "nibble_index").toInt, (r.field "carry_in").toBool, (r.field "carry_out").toBool⟩

instance : RoleRecord Contract.Memory.Place where
  fields p :=
    [("nibble_index", .int p.nibble), ("is_address", .bool p.isAddress),
      ("is_data", .bool p.isData)]
  ofJson r :=
    ⟨(r.field "nibble_index").toInt, (r.field "is_address").toBool, (r.field "is_data").toBool⟩

instance : RoleRecord Contract.Execution.Place where
  fields p :=
    [("phase", .str p.phase.name), ("nibble_index", .int p.nibble), ("cycle", .nat p.cycle)]
  ofJson r :=
    ⟨(Contract.Execution.Phase.all.find? fun phase =>
        phase.name = (r.field "phase").toText).getD .fetch,
      ((r.get? "nibble_index").map Json.toInt).getD (-1), (r.field "cycle").toNat⟩

instance : RoleRecord Contract.Proving.Place where
  fields p := [("phase", .str p.phase.name), ("shard", .optional (fun s => .str s.name) p.shard),
    ("depth", .int p.depth)]
  ofJson r :=
    ⟨(Contract.Proving.Phase.all.find? fun phase =>
        phase.name = (r.field "phase").toText).getD .witness,
      Contract.Proving.Shard.all.find? fun shard => shard.name = (r.field "shard").toText,
      (r.field "depth").toInt⟩

namespace Part

variable {ρ : Type} [RoleRecord ρ]

def ofJson (record : Json) : Part ρ :=
  ⟨(record.field "name").toText, .ofJson (record.field "contract"), RoleRecord.ofJson record⟩

def fields (part : Part ρ) : List (String × Json) :=
  [("name", .str part.name), ("contract", part.contract.json)] ++ RoleRecord.fields part.role

/-- A part with what is most important of its contract. -/
def brief (part : Part ρ) : Json :=
  .obj ([("name", .str part.name), ("contract", .str part.contract.name),
    ("assumptions", .texts part.contract.assumptions),
    ("constraint_count", .nat part.contract.constraints.length),
    ("variables", .textSet part.contract.names)] ++ RoleRecord.fields part.role)

end Part

namespace Decomposition

variable {ρ : Type} [RoleRecord ρ]

/-- The fields of a decomposition: `kind` is the key for the operation. -/
def fields (kind : String) (total : Nat) (d : Decomposition ρ) : List (String × Json) := [
  (kind, .str d.operation), ("files", .textFields d.files), ("total_constraints", .nat total),
  ("components", .arr (d.parts.map Part.brief)),
  ("contract_names", .texts (d.parts.map fun p => p.contract.name))]

end Decomposition

namespace Contract

def Instruction.json (d : Decomposition Instruction.Place) : Json :=
  .obj (d.fields "instruction" d.constraintCount)

def Memory.json (d : Decomposition Memory.Place) : Json :=
  .obj (d.fields "operation" d.constraintCount)

def Execution.Result.json (r : Execution.Result) : Json :=
  .obj (r.fields "operation" r.parts.length ++ [("cycles_required", .nat r.cycles)])

def Proving.Result.json (r : Proving.Result) : Json :=
  let shard (entry : Proving.Shard × List (Part Proving.Place)) : Json :=
    .obj [("shard_id", .nat entry.1.number),
    ("shard_type", .str entry.1.name), ("components", .texts (entry.2.map (·.name)))]
  .obj (r.fields "operation" r.parts.length ++
    [("proof_depth", .nat r.depth), ("shards", .arr (r.shards.map shard))])

end Contract

end Zkvm
