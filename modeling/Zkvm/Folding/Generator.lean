import Zkvm.Digest.Sha256
import Zkvm.Folding.Noise
import Zkvm.Json.Fields
import Zkvm.Text.Case
import Zkvm.Text.Search

/-!
# Folding circuits

Nodes of a program ask for circuits that fold, unfold, commit to, accumulate and verify instances.
The generator keeps a noise manager for every instance and counts the rounds of folding; a failure
ends a request but not what was done before it.
-/
set_option autoImplicit false

namespace Zkvm.Folding

inductive Operation where
  | fold
  | unfold
  | commit
  | accumulate
  | verify

namespace Operation

def name : Operation → String
  | .fold => "FOLD"
  | .unfold => "UNFOLD"
  | .commit => "COMMIT"
  | .accumulate => "ACCUMULATE"
  | .verify => "VERIFY"

def all : List Operation := [.fold, .unfold, .commit, .accumulate, .verify]

def ofName? (name : String) : Option Operation :=
  all.find? fun operation => operation.name = Text.upper name

end Operation

/-- What is asked for; what is not given has a default that depends on the operation. -/
structure Node where
  kind : Option String := none
  /-- The text that tells the node from others in a report. -/
  id : String := "None"
  operation : String := ""
  instance' : String := "default"
  inputs : Option (List String) := none
  outputs : Option (List String) := none
  seed : Option Int := none

/-- What a circuit records of its noise. -/
inductive NoiseRecord where
  | none
  | bounded (dimension bound : Int)
  | seeded (dimension bound seed : Int)
  | limited (dimension bound errorBound : Int)

namespace NoiseRecord

def fields : NoiseRecord → List (String × Int)
  | .none => []
  | .bounded dimension bound => [("dimension", dimension), ("bound", bound)]
  | .seeded dimension bound seed => [("dimension", dimension), ("bound", bound), ("seed", seed)]
  | .limited dimension bound errorBound =>
    [("dimension", dimension), ("bound", bound), ("error_bound", errorBound)]

def dimension? : NoiseRecord → Option Int
  | .none => Option.none
  | .bounded dimension _ | .seeded dimension _ _ | .limited dimension _ _ => some dimension

def bound? : NoiseRecord → Option Int
  | .none => Option.none
  | .bounded _ bound | .seeded _ bound _ | .limited _ bound _ => some bound

def text (record : NoiseRecord) : String :=
  "\x7b" ++ ", ".intercalate
    (record.fields.map fun (key, value) => s!"{Text.quoted key}: {value}") ++ "\x7d"

end NoiseRecord

structure Circuit where
  operation : Operation
  inputs : List String
  outputs : List String
  constraints : List String
  noise : NoiseRecord := .none

/-- An instance in an accumulator; all its values are zero. -/
structure FoldedInstance where
  noise : NoiseVector
  round : Nat

structure Accumulator where
  instances : List FoldedInstance
  errorBound : Int
  noiseBound : Int
  round : Nat
  commitments : List String

structure Settings where
  noiseDimension : Int := 16
  noiseBound : Int := 100
  errorBound : Int := 1000
  createAccumulator : Bool := false

structure Result where
  success : Bool
  circuits : List Circuit
  accumulator : Option Accumulator := none
  commitments : List (String × String) := []
  errors : List String := []
  /-- The round, the dimension of noise and the number of circuits; nothing after a failure. -/
  metadata : List (String × Int) := []

structure Generator where
  /-- The noise manager of every instance. -/
  managers : List (String × NoiseManager) := []
  round : Nat := 0

/-- The first sixteen digits of the digest of some texts, one after another. -/
def hashTexts (texts : List String) : String :=
  Text.take 16 (Digest.hex (texts.flatMap fun text => text.toUTF8.toList))

namespace Generator

/-- Generates noise for an instance, and keeps its manager. -/
def drawNoise (generator : Generator) (instance' : String) (manager : NoiseManager) (seed : Int) :
    Except Failure (NoiseVector × Generator) := do
  let (noise, next) ← manager.generate seed
  pure (noise, { generator with managers := Json.put instance' next generator.managers })

def firstElements (noise : NoiseVector) : List (Int × Nat) :=
  (noise.elements.take 4).zipIdx

def foldConstraints (noise : NoiseVector) : List String :=
  ["w_folded = w1 + r * w2", "x_folded = x1 + r * x2",
    "e_folded = e1 + r * e2 + r * (1 - r) * T"] ++
    (firstElements noise).map fun (element, i) => s!"n{i} = {element}"

def accumulateConstraints (noise : NoiseVector) (errorBound : Int) : List String :=
  ["acc_new.error = acc.error + instance.error", s!"acc_new.error < {errorBound}",
    "acc_new.round = acc.round + 1", "proof = generate_accumulation_proof(acc, instance)"] ++
    (firstElements noise).map fun (_, i) =>
      s!"acc_new.noise[{i}] = acc.noise[{i}] + instance.noise[{i}]"

def foldCircuit (node : Node) (seed : Int) (noise : NoiseVector) : Circuit where
  operation := .fold
  inputs := node.inputs.getD ["w1", "w2", "x1", "x2"]
  outputs := node.outputs.getD ["w_folded", "x_folded", "e_folded"]
  constraints := foldConstraints noise
  noise := .seeded noise.dimension noise.bound seed

def accumulateCircuit (settings : Settings) (node : Node) (noise : NoiseVector) : Circuit where
  operation := .accumulate
  inputs := node.inputs.getD ["acc", "instance"]
  outputs := node.outputs.getD ["acc_new", "proof"]
  constraints := accumulateConstraints noise settings.errorBound
  noise := .limited noise.dimension noise.bound settings.errorBound

/-- A circuit with new noise.  The noise stays drawn if one of the numbers for the circuit is too
long. -/
def withNoise (generator : Generator) (node : Node) (manager : NoiseManager) (seed : Int)
    (numbers : NoiseVector → List Int) (make : NoiseVector → Circuit) :
    Except Failure Circuit × Generator :=
  match generator.drawNoise node.instance' manager seed with
  | .error failure => (.error failure, generator)
  | .ok (noise, after) => ((writeNumbers (numbers noise)).map fun _ => make noise, after)

/-- The circuit of a node, with the generator after it.  Only a circuit that folds goes on to the
next round. -/
def circuit (settings : Settings) (generator : Generator) (node : Node) (manager : NoiseManager) :
    Operation → Except Failure Circuit × Generator
  | .fold =>
    let seed := node.seed.getD generator.round
    let folded := generator.withNoise node manager seed (·.elements.take 4) (foldCircuit node seed)
    (folded.1, if folded.1.isOk then { folded.2 with round := folded.2.round + 1 } else folded.2)
  | .unfold =>
    (.ok { operation := .unfold
           inputs := node.inputs.getD ["w_folded", "x_folded", "e_folded"]
           outputs := node.outputs.getD ["w", "x", "valid"]
           constraints := ["valid = (e_folded < error_threshold)", "w = extract_witness(w_folded)",
             "x = extract_statement(x_folded)"]
           noise := .bounded manager.dimension manager.bound }, generator)
  | .commit =>
    (.ok { operation := .commit
           inputs := node.inputs.getD ["instance", "randomness"]
           outputs := node.outputs.getD ["commitment"]
           constraints := ["commitment = hash(instance || randomness)",
             "verify_commitment_binding(commitment, instance)"] }, generator)
  | .accumulate =>
    generator.withNoise node manager generator.round (fun _ => [settings.errorBound])
      (accumulateCircuit settings node)
  | .verify =>
    (.ok { operation := .verify
           inputs := node.inputs.getD ["instance", "proof", "commitment"]
           outputs := node.outputs.getD ["valid"]
           constraints := ["valid = verify_folding_proof(instance, proof)",
             "valid = valid AND verify_commitment(instance, commitment)",
             "valid = valid AND check_error_bounds(instance)"] }, generator)

/-- The manager of an instance, which is made with the present settings if there is none. -/
def withManager (settings : Settings) (generator : Generator) (instance' : String) :
    NoiseManager × Generator :=
  match generator.managers.lookup instance' with
  | some manager => (manager, generator)
  | none =>
    let manager : NoiseManager := ⟨settings.noiseDimension, settings.noiseBound, []⟩
    (manager, { generator with managers := Json.put instance' manager generator.managers })

structure Progress where
  circuits : List Circuit := []
  errors : List String := []

/-- The circuit of a node; there is none for an operation that is not known. -/
def processNode (settings : Settings) (generator : Generator) (node : Node) :
    Except Failure (Option Circuit) × Generator :=
  match Operation.ofName? node.operation with
  | none => (.ok none, generator)
  | some operation =>
    let (manager, ready) := generator.withManager settings node.instance'
    let made := ready.circuit settings node manager operation
    (made.1.map some, made.2)

/-- Takes one node; those that are not about folding are skipped. -/
def takeNode (settings : Settings) (generator : Generator) (progress : Progress) (node : Node) :
    Except Failure Progress × Generator :=
  if node.kind ≠ some "folding" then (.ok progress, generator)
  else
    match generator.processNode settings node with
    | (.ok (some made), after) =>
      (.ok { progress with circuits := progress.circuits ++ [made] }, after)
    | (.ok none, after) =>
      (.ok { progress with errors := progress.errors ++ [s!"Failed to process node: {node.id}"] },
        after)
    | (.error failure, after) => (.error failure, after)

def takeNodes (settings : Settings) :
    Generator → Progress → List Node → Except Failure Progress × Generator
  | generator, progress, [] => (.ok progress, generator)
  | generator, progress, node :: rest =>
    match generator.takeNode settings progress node with
    | (.ok next, after) => takeNodes settings after next rest
    | (.error failure, after) => (.error failure, after)

/-- The instance of a circuit that folds or accumulates; the other circuits have none. -/
def instance? (settings : Settings) (round : Nat) (circuit : Circuit) :
    Option (Except Failure FoldedInstance) :=
  let dimension := circuit.noise.dimension?.getD 16
  let zeros := NoiseVector.make dimension (List.replicate dimension.toNat 0)
    (circuit.noise.bound?.getD settings.noiseBound)
  match circuit.operation with
  | .fold | .accumulate => some (zeros.map (⟨·, round⟩))
  | _ => none

def accumulator (settings : Settings) (round : Nat) (circuits : List Circuit) :
    Except Failure Accumulator := do
  let commits := circuits.filter fun c => c.operation.name = Operation.commit.name
  pure { instances := ← (circuits.filterMap (instance? settings round)).mapM id
         errorBound := settings.errorBound
         noiseBound := settings.noiseBound
         round
         commitments := commits.map fun c => hashTexts c.constraints }

/-- The texts that a commitment to a circuit is the hash of; only some circuits are committed to. -/
def committed? (circuit : Circuit) : Option (String × List String) :=
  match circuit.operation with
  | .commit => some ("commit", circuit.inputs ++ circuit.outputs ++ circuit.constraints)
  | .fold => some ("fold", [circuit.noise.text, Text.quotedList circuit.constraints])
  | _ => none

/-- The commitments, under the kind and the place of their circuits. -/
def commitments (circuits : List Circuit) : List (String × String) :=
  circuits.zipIdx.filterMap fun (circuit, i) =>
    (committed? circuit).map fun (kind, texts) => (s!"{kind}_{i}", hashTexts texts)

def committedNumbers (circuits : List Circuit) : List Int :=
  circuits.flatMap fun circuit =>
    match circuit.operation with
    | .fold => circuit.noise.fields.map Prod.snd
    | _ => []

def commit (circuits : List Circuit) : Except Failure (List (String × String)) := do
  writeNumbers (committedNumbers circuits)
  pure (commitments circuits)

def finish (settings : Settings) (generator : Generator) (progress : Progress) :
    Except Failure Result := do
  let accumulator ←
    if settings.createAccumulator then
      some <$> accumulator settings generator.round progress.circuits
    else
      pure none
  pure { success := progress.errors.isEmpty
         circuits := progress.circuits
         accumulator
         commitments := ← commit progress.circuits
         errors := progress.errors
         metadata :=
           [("folding_round", generator.round), ("noise_dimension", settings.noiseDimension),
           ("total_circuits", progress.circuits.length)] }

def failed (failure : Failure) : Result :=
  { success := false, circuits := [], errors := [s!"Generation failed: {failure.message}"] }

def generate (settings : Settings) (nodes : List Node) (generator : Generator) :
    Result × Generator :=
  let (outcome, after) := generator.takeNodes settings {} nodes
  match outcome.bind (after.finish settings) with
  | .ok result => (result, after)
  | .error failure => (failed failure, after)

end Generator

end Zkvm.Folding
