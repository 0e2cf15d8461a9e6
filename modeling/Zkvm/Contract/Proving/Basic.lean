import Zkvm.Contract.Basic
import Zkvm.Text.Case

/-!
# Parts of a distributed proof

A proof is made in phases and spread over shards.  The role of a part is its phase, its shard, if it
has one, and its depth.
-/
set_option autoImplicit false

namespace Zkvm.Contract.Proving

inductive Phase where
  | witness
  | check
  | commitment
  | proof
  | aggregation
  | validation

def Phase.name : Phase → String
  | .witness => "WITNESS_GEN"
  | .check => "CONSTRAINT_CHECK"
  | .commitment => "COMMITMENT"
  | .proof => "PROOF_GEN"
  | .aggregation => "AGGREGATION"
  | .validation => "VALIDATION"

def Phase.all : List Phase :=
  [.witness, .check, .commitment, .proof, .aggregation, .validation]

inductive Shard where
  | execution
  | memory
  | arithmetic
  | logic
  | controlFlow

namespace Shard

def all : List Shard :=
  [.execution, .memory, .arithmetic, .logic, .controlFlow]

def name : Shard → String
  | .execution => "EXECUTION"
  | .memory => "MEMORY"
  | .arithmetic => "ARITHMETIC"
  | .logic => "LOGIC"
  | .controlFlow => "CONTROL_FLOW"

def number : Shard → Nat
  | .execution => 0
  | .memory => 1
  | .arithmetic => 2
  | .logic => 3
  | .controlFlow => 4

def word (shard : Shard) : String :=
  Text.lower shard.name

end Shard

structure Place where
  phase : Phase
  shard : Option Shard := none
  depth : Int := 0

instance : Role Place where
  remark place :=
    s!"# Phase: {place.phase.name}, Depth: {place.depth}\n" ++
      match place.shard with
      | some shard => s!"# Shard: {shard.name}\n"
      | none => ""

def mentioned (name : String) : String :=
  s!"{name} = {name}"

end Zkvm.Contract.Proving
