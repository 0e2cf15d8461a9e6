import Zkvm.Contract.Execution.Parts

/-!
# Contracts of executions, single steps and traces
-/
set_option autoImplicit false

namespace Zkvm.Contract.Execution

/-- The parts of the execution of one instruction; four registers are covered. -/
def cyclePlan (nibbles : Int) : Plan Place :=
  let places := Formula.places nibbles
  (places.map fun (i : Nat) => (s!"exec_fetch_pc_nibble_{i}", counterFetch i)) ++
    [("exec_fetch_instruction", instructionFetch), ("exec_decode", decodePart)] ++
    ((List.range 4).flatMap fun (register : Nat) =>
      places.map fun (i : Nat) =>
        (s!"exec_reg_{register}_nibble_{i}", registerUpdate register i)) ++
    (Flag.all.map fun flag => ("exec_flag_" ++ Text.lower flag.name, flagUpdate flag)) ++
    places.map fun (i : Nat) => (s!"exec_pc_update_nibble_{i}", counterUpdate i)

/-- The parts of a step: an execution between two records of the state. -/
def stepPlan (nibbles : Int) : Plan Place :=
  [("step_state_pre", stateCapture "pre")] ++
    ((cyclePlan nibbles).map fun (stem, part) => ("step_" ++ stem, part)) ++
    [("step_state_post", stateCapture "post"), ("step_transition", stateTransition)]

def tracePlan : Plan Place :=
  [("trace_init", traceStart)] ++
    (Phase.all.map fun phase => ("trace_phase_" ++ Text.lower phase.name, traceEntry phase)) ++
    [("trace_consistency", traceCheck)]

structure Result extends Decomposition Place where
  /-- The number of cycles that it takes. -/
  cycles : Nat

structure Generator where
  directory : String := "build/execution"
  nibbles : Int := 8

namespace Generator

def execution (generator : Generator) : Except Failure Result :=
  (Decomposition.ofPlan "EXEC" (cyclePlan generator.nibbles)).map (⟨·, 5⟩)

def step (generator : Generator) : Except Failure Result :=
  (Decomposition.ofPlan "STEP" (stepPlan generator.nibbles)).map (⟨·, 1⟩)

def trace : Except Failure Result :=
  (Decomposition.ofPlan "TRACE" tracePlan).map (⟨·, 1⟩)

def titled? (generator : Generator) : String → Option (Except Failure Result)
  | "exec cycle" => some generator.execution
  | "single step" => some generator.step
  | "trace capture" => some trace
  | _ => none

/-- The parts by their titles.  A part takes what it needs of two numbers and a word, which is the
name of a flag, a phase or a moment. -/
def part? (title : String) (number nibble : Int) (word : String) :
    Option (Except Failure (Part Place)) :=
  let plain (part : Part Place) : Option (Except Failure (Part Place)) := some (.ok part)
  match title with
  | "pc nibble fetch" => some (counterFetch? number)
  | "instruction fetch" => plain instructionFetch
  | "decode phase" => plain decodePart
  | "register update" => plain (registerUpdate number nibble)
  | "flag update" => (Flag.all.find? fun flag => flag.name = word).map fun flag =>
    .ok (flagUpdate flag)
  | "pc update" => plain (counterUpdate number)
  | "state capture" => plain (stateCapture word)
  | "state transition" => plain stateTransition
  | "trace init" => plain traceStart
  | "trace entry" => (Phase.all.find? fun phase => phase.name = word).map fun phase =>
    .ok (traceEntry phase)
  | "trace consistency" => plain traceCheck
  | _ => none

def decompose (generator : Generator) (operation : String) : Except Failure Result :=
  match Text.upper operation with
  | "EXEC" => generator.execution
  | "STEP" => generator.step
  | "TRACE" => trace
  | _ => .error (.unknown "execution operation" operation)

def generate (generator : Generator) : List String → Except Failure (List (String × Result)) :=
  decomposeAll generator.decompose

def summary (result : Result) : String :=
  Text.lines [s!"Operation: {result.operation}", s!"Components: {result.parts.length}",
    s!"Contracts: {result.parts.length}", s!"Total Constraints: {result.parts.length}",
    s!"Cycles Required: {result.cycles}", "", "Components:", ""] ++
    String.join (result.parts.map fun part =>
      s!"  - {part.name} (Phase: {part.role.phase.name}, Cycle: {part.role.cycle})\n")

def save (generator : Generator) (results : List (String × Result)) : Action Unit := do
  Action.makeDirectories generator.directory
  results.forM fun (operation, result) => do
    let place ← result.saveFiles generator.directory operation
    Action.writeFile (Path.join place "summary.txt") (summary result)

end Generator

end Zkvm.Contract.Execution
