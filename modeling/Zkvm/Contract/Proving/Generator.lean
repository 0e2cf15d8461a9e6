import Zkvm.Contract.Proving.Parts

/-!
# Contracts of proving, aggregating and validating
-/
set_option autoImplicit false

namespace Zkvm.Contract.Proving

/-- Three levels of the proof of a shard. -/
def shardLevels (shard : Shard) : Plan Place :=
  (List.range 3).map fun (level : Nat) =>
    (s!"prove_gen_{shard.word}_level_{level}", proofLevel shard level)

def provePlan : Plan Place :=
  (Shard.all.map fun shard => (s!"prove_witness_{shard.word}", witness shard)) ++
    ((List.range 4).map fun (i : Nat) => (s!"prove_constraints_shard_{i}", constraintCheck i)) ++
    ((List.range 8).map fun (i : Nat) => (s!"prove_commit_nibble_{i}", commitmentNibble i)) ++
    Shard.all.flatMap shardLevels

/-- A tree of three levels with four, two and one nodes, and what follows it. -/
def aggregatePlan : Plan Place :=
  ((List.range 3).flatMap fun (level : Nat) =>
    (List.range (Nat.pow 2 (2 - level))).map fun (node : Nat) =>
      (s!"aggregate_level_{level}_node_{node}", aggregationNode level node)) ++
    ((List.range 4).map fun (i : Nat) => (s!"aggregate_combine_{i}", proofCombiner i)) ++
    [("aggregate_recursive_verify", recursiveVerifier), ("aggregate_final", finalAggregation)]

def validatePlan : Plan Place :=
  ((List.range 8).map fun (i : Nat) => (s!"validate_commit_{i}", commitmentValidator i)) ++
    (["arithmetic", "logic", "memory", "control"].map fun kind =>
      (s!"validate_constraints_{kind}", constraintValidator kind)) ++
    [("validate_structure", structureValidator), ("validate_decision", decision)]

structure Result extends Decomposition Place where
  /-- The shards with their parts. -/
  shards : List (Shard × List (Part Place))
  depth : Nat

structure Generator where
  directory : String := "build/proving"

namespace Generator

def prove : Except Failure Result :=
  (Decomposition.ofPlan "PROVE" provePlan).map
    (⟨·, Shard.all.map fun shard => (shard, (shardLevels shard).map (·.2)), 3⟩)

def aggregate : Except Failure Result :=
  (Decomposition.ofPlan "AGGREGATE" aggregatePlan).map (⟨·, [], 3⟩)

def validate : Except Failure Result :=
  (Decomposition.ofPlan "VALIDATE" validatePlan).map (⟨·, [], 1⟩)

def titled? : String → Option (Except Failure Result)
  | "proof components" => some prove
  | "aggregation components" => some aggregate
  | "validation components" => some validate
  | _ => none

/-- The parts by their titles.  A part takes what it needs of two numbers and a word, which is the
name of a shard or of a kind of constraints. -/
def part? (title : String) (number next : Int) (word : String) : Option (Part Place) :=
  let shard? := Shard.all.find? fun shard => shard.name = word
  match title with
  | "witness component" => shard?.map witness
  | "constraint check" => some (constraintCheck number)
  | "commitment nibble" => some (commitmentNibble number)
  | "proof level" => shard?.map fun shard => proofLevel shard number
  | "aggregation node" => some (aggregationNode number next)
  | "proof combiner" => some (proofCombiner number)
  | "recursive verifier" => some recursiveVerifier
  | "final aggregation" => some finalAggregation
  | "commitment validator" => some (commitmentValidator number)
  | "constraint validator" => some (constraintValidator word)
  | "proof structure validator" => some structureValidator
  | "validation decision" => some decision
  | _ => none

def decompose (operation : String) : Except Failure Result :=
  match Text.upper operation with
  | "PROVE" => prove
  | "AGGREGATE" => aggregate
  | "VALIDATE" => validate
  | _ => .error (.unknown "proving operation" operation)

def generate : List String → Except Failure (List (String × Result)) :=
  decomposeAll decompose

def partLines (part : Part Place) : String :=
  s!"  - {part.name} (Phase: {part.role.phase.name}, Depth: {part.role.depth})\n" ++
    match part.role.shard with
    | some shard => s!"    Shard: {shard.name}\n"
    | none => ""

def summary (result : Result) : String :=
  Text.lines [s!"Operation: {result.operation}", s!"Components: {result.parts.length}",
    s!"Contracts: {result.parts.length}", s!"Total Constraints: {result.parts.length}",
    s!"Proof Depth: {result.depth}", s!"Shards: {result.shards.length}", "", "Components:", ""] ++
    String.join (result.parts.map partLines)

def shardRecord (shards : List (Shard × List (Part Place))) : Json :=
  .arr (shards.map fun (shard, parts) =>
    .obj [("shard_id", .int shard.number), ("shard_type", .str shard.name),
    ("components", .int parts.length), ("commitments", .obj [])])

def save (generator : Generator) (results : List (String × Result)) : Action Unit := do
  Action.makeDirectories generator.directory
  results.forM fun (operation, result) => do
    let place ← result.saveFiles generator.directory operation
    Action.writeFile (Path.join place "summary.txt") (summary result)
    if !result.shards.isEmpty then
      Action.writeFile (Path.join place "shards.json") (shardRecord result.shards).pretty

end Generator

end Zkvm.Contract.Proving
