import Zkvm.Composition.Basic
import Zkvm.Contract.Execution.Generator
import Zkvm.Contract.Instruction.Generator
import Zkvm.Contract.Memory.Generator
import Zkvm.Contract.Proving.Generator
import Zkvm.Work.Job

/-!
# Products of the makers

What the maker of each module gives for a list of operations, and how much of that a job can count.
Only the contracts of instructions are counted one by one.
-/
set_option autoImplicit false

namespace Zkvm.Work

inductive Product where
  | instructions (results : List (String × Decomposition Contract.Instruction.Place))
  | memory (results : List (String × Decomposition Contract.Memory.Place))
  | execution (results : List (String × Contract.Execution.Result))
  | proving (results : List (String × Contract.Proving.Result))
  | tests

namespace Product

/-- Lets a maker work.  The maker of folding circuits cannot work without settings. -/
def make (maker : String) (operations : List String) : Except Failure Product :=
  match maker with
  | "isa" => (Contract.Instruction.Generator.generate {} operations).map .instructions
  | "memory" => (Contract.Memory.Generator.generate {} operations).map .memory
  | "execution" => (Contract.Execution.Generator.generate {} operations).map .execution
  | "proving" => (Contract.Proving.Generator.generate operations).map .proving
  | "folding" => .error (.missingInput "FoldingGenerator.generate()" "config")
  | "test" => .ok .tests
  | other => .error (.missingKey other)

def instructionYield (results : List (String × Decomposition Contract.Instruction.Place)) :
    Yield where
  components := (results.map fun (_, d) => d.constraintCount).foldr (· + ·) 0
  files := results.flatMap fun (operation, d) =>
    d.parts.map fun part => s!"{Text.lower operation}_nibble_{part.name}.tau"
  contracts := (results.flatMap fun (_, d) => d.parts).foldl
    (fun contracts part => Json.put part.name (.obj part.contract.termFields) contracts) []

def yield : Product → Except Failure Yield
  | .instructions results => .ok (instructionYield results)
  | .memory [] => .ok {}
  | .memory _ => .error (.noAbility "MemoryResult" "components")
  | .execution [] => .ok {}
  | .execution _ => .error (.noKeys "ExecutionResult")
  | .proving _ => .ok {}
  | .tests => .error (.tooManyInputs "TestGenerator.generate()" 2 3)

end Product

/-- The plain style counts nothing: a product has no count of its own. -/
def Style.yield : Style → Product → Except Failure Yield
  | .plain, _ => .error (.noAbility "dict" "components_generated")
  | .timed, product => product.yield

end Zkvm.Work
