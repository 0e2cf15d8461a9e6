import Zkvm.Contract.Instruction.Generator

/-!
# Coverage of the instructions

The instructions of the machine are decomposed in small batches, and the size of each is told.  The
operations on memory are none of the generator's, so that the batch with the first of them is the
last.
-/
set_option autoImplicit false

namespace Zkvm.Inspection.Coverage

open Contract.Instruction (Family Generator Place)

/-- All instructions: the operations on memory stand between the comparisons and the jumps. -/
def instructions : List String :=
  ([.arithmetic, .bitwise, .comparison] : List Family).flatMap Family.members ++
    ["LOAD", "STORE", "MLOAD", "MSTORE", "PUSH", "POP", "DUP", "SWAP"] ++
    ([.control, .crypto, .system] : List Family).flatMap Family.members

def batches {α : Type} (size : Nat) : Nat → List α → List (List α)
  | 0, _ => []
  | _, [] => []
  | count + 1, items => items.take size :: batches size count (items.drop size)

def longest (d : Decomposition Place) : Nat :=
  d.parts.foldl (fun most part => most.max (Formula.joinTexts part.contract.constraints).length) 0

def describe (name : String) (d : Decomposition Place) : String :=
  s!"  {name}: {d.parts.length} components, {d.constraintCount} constraints, max {longest d} chars"

def processBatch (generator : Generator) (batch : List String) : Action Unit := do
  Action.say ("Processing batch: " ++ ", ".intercalate batch)
  let start ← Action.now
  let results ← Action.ofExcept (generator.generate batch)
  let time := (← Action.now) - start
  Action.sayAll (results.map fun (name, d) => describe name d)
  Action.say s!"  Batch time: {Text.fixed 2 time}s\n"

/-- Decomposes all instructions batch by batch, until one is not known. -/
def run : Action Unit := do
  Action.say "=== TauFoldZKVM Full Implementation Validation ===\n"
  Action.makeDirectories "build/zkvm_validation"
  Action.say s!"Validating {instructions.length} instructions...\n"
  (batches 5 instructions.length instructions).forM
    (processBatch { directory := "build/zkvm_validation/isa" })

end Zkvm.Inspection.Coverage
