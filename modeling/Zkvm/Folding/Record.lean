import Zkvm.Folding.Generator
import Zkvm.Json.Shown

/-!
# Records of folding

Requests are read node by node: what is wrong with a node is found out when its turn comes.
-/
set_option autoImplicit false

namespace Zkvm.Folding

namespace NoiseVector

def ofJson (record : Json) : Except Failure NoiseVector :=
  make (record.field "dimension").toInt (record.field "elements").toInts
    (record.field "bound").toInt

def json (noise : NoiseVector) : Json := .obj [
  ("dimension", .int noise.dimension), ("elements", .ints noise.elements),
  ("bound", .int noise.bound)]

end NoiseVector

/-- The key of an instance: a text, or what another value looks like.  A list or a record is no
key. -/
def instanceKey : Json → Except Failure String
  | .str text => .ok text
  | .arr _ => .error (.noElement "list")
  | .obj _ => .error (.noElement "dict")
  | other => .ok (other.shown ++ "\n")

/-- A node; one that is about folding needs the name of an operation and, if that is known, a
key. -/
def Node.ofJson (record : Json) : Except Failure Node := do
  let _ ← record.demandRecord "get"
  let operation := (record.get? "operation").getD (.str "")
  let key := (record.get? "instance_id").getD (.str "default")
  let node : Node :=
    { kind := (record.get? "type").map Json.toText
      id := (record.field "id").shown
      operation := operation.toText
      inputs := (record.field "inputs").toTexts?
      outputs := (record.field "outputs").toTexts?
      seed := (record.get? "seed").map Json.toInt }
  if node.kind ≠ some "folding" then pure node
  else
    match operation with
    | .str name =>
      if (Operation.ofName? name).isSome then return { node with instance' := ← instanceKey key }
      else
        -- the error that will name the node has to be written
        writeNumbers (record.field "id").numbers
        pure node
    | other => .error (.noAbility other.kindName "upper")

def Settings.ofJson (record : Json) : Except Failure Settings := do
  let _ ← record.demandRecord "get"
  let number (key : String) (default : Int) := ((record.get? key).map Json.toInt).getD default
  pure { noiseDimension := number "noise_dimension" 16
         noiseBound := number "noise_bound" 100
         errorBound := number "error_bound" 1000
         createAccumulator := (record.field "create_accumulator").toBool }

/-- The nodes up to the first that cannot be read, and what is wrong with that one. -/
def readNodes : List Json → List Node × Option Failure
  | [] => ([], none)
  | record :: rest =>
    match Node.ofJson record with
    | .error failure => ([], some failure)
    | .ok node =>
      let (nodes, failure) := readNodes rest
      (node :: nodes, failure)

def Generator.serve (nodes settings : Json) (generator : Generator) : Result × Generator :=
  match Settings.ofJson settings, nodes.iterateValues with
  | .error failure, _ | _, .error failure => (failed failure, generator)
  | .ok settings, .ok records =>
    match readNodes records with
    | (nodes, none) => generator.generate settings nodes
    | (nodes, some failure) =>
      let (outcome, after) := generator.takeNodes settings {} nodes
      match outcome with
      | .error first => (failed first, after)
      | .ok _ => (failed failure, after)

def NoiseManager.ofJson (record : Json) : NoiseManager where
  dimension := (record.field "dimension").toInt
  bound := (record.field "bound").toInt

def NoiseRecord.ofJson (record : Json) : NoiseRecord :=
  match record.get? "dimension", record.get? "bound", record.get? "seed",
    record.get? "error_bound" with
  | some dimension, some bound, some seed, _ => .seeded dimension.toInt bound.toInt seed.toInt
  | some dimension, some bound, Option.none, some limit =>
    .limited dimension.toInt bound.toInt limit.toInt
  | some dimension, some bound, _, _ => .bounded dimension.toInt bound.toInt
  | _, _, _, _ => .none

def Circuit.ofJson (record : Json) : Circuit where
  operation := (Operation.ofName? (record.field "operation").toText).getD .verify
  inputs := (record.field "inputs").toTexts
  outputs := (record.field "outputs").toTexts
  constraints := (record.field "constraints").toTexts
  noise := .ofJson (record.field "noise_params")

def numbersJson (fields : List (String × Int)) : Json :=
  .obj (fields.map fun (key, value) => (key, .int value))

def Circuit.json (c : Circuit) : Json := .obj [
  ("operation", .str c.operation.name), ("inputs", .texts c.inputs), ("outputs", .texts c.outputs),
  ("constraints", .texts c.constraints), ("noise_params", numbersJson c.noise.fields)]

def FoldedInstance.json (i : FoldedInstance) : Json :=
  let zeros (count : Nat) : Json := .ints (List.replicate count 0)
  .obj [("witness", zeros 10), ("statement", zeros 5), ("error", zeros 3), ("noise", i.noise.json),
    ("round", .nat i.round), ("commitment", .null)]

def Accumulator.json (a : Accumulator) : Json := .obj [
  ("instances", .arr (a.instances.map FoldedInstance.json)), ("error_bound", .int a.errorBound),
  ("noise_bound", .int a.noiseBound), ("current_round", .nat a.round),
  ("commitments", .texts a.commitments)]

def Result.json (r : Result) : Json := .obj [
  ("success", .bool r.success), ("circuits", .arr (r.circuits.map Circuit.json)),
  ("accumulator", .optional Accumulator.json r.accumulator),
  ("commitments", .textFields r.commitments), ("errors", .texts r.errors),
  ("metadata", numbersJson r.metadata)]

end Zkvm.Folding
