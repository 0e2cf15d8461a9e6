import Zkvm.Machine.Step

/-!
# Runs of the machine

A run executes commands until the machine halts, the limit of cycles is reached, the counter has
passed the end of the program, or a command fails.  Every executed command leaves one entry in the
trace.  After each one an inspector may be asked for its verdict on the operation; a refusal is
recorded and the run goes on.
-/
set_option autoImplicit false

namespace Zkvm.Machine

/-- What was executed in one cycle, with the counter, the depth of the stack and the registers it
left. -/
structure TraceEntry where
  cycle : Nat
  counter : Int
  command : Command
  depth : Nat
  registers : List Int

structure Violation where
  cycle : Nat
  opcode : Opcode
  inputs : List Int := []
  outputs : List Int := []

/-- What an inspector says of an operation, and the lines it prints. -/
structure Verdict where
  accepted : Bool
  warnings : List String

/-- The verdict on each operation with the values that went in and came out, if there is an
inspector at all. -/
abbrev Inspector := Option (Opcode → List Int → List Int → Verdict)

def Inspector.examine (inspector : Inspector) (opcode : Opcode) (inputs outputs : List Int) :
    Verdict :=
  match inspector with
  | some judge => judge opcode inputs outputs
  | none => ⟨true, []⟩

inductive Stop where
  | halted
  | limit
  | ended
  | failed (fault : Fault)

end Machine

structure Machine where
  state : Machine.State := {}
  trace : Array Machine.TraceEntry := #[]
  violations : Array Machine.Violation := #[]
  said : Array String := #[]

namespace Machine

/-- Executes one command; a failure leaves all records as they were.  The inspector is asked about
no values: neither the operands nor the results are gathered. -/
def execute (ambient : Ambient) (inspector : Inspector) (command : Command) (m : Machine) :
    Machine × Option Fault :=
  match step ambient command m.state with
  | .failed left fault => ({ m with state := left }, some fault)
  | .done next said =>
    let inputs : List Int := []
    let outputs : List Int := []
    let verdict := inspector.examine command.opcode inputs outputs
    let violations :=
      if verdict.accepted then m.violations
      else m.violations.push { cycle := next.cycles, opcode := command.opcode, inputs, outputs }
    let entry : TraceEntry :=
      ⟨next.cycles, next.counter, command, next.stack.length, next.registers⟩
    ({ state := { next with cycles := next.cycles + 1 }
       trace := m.trace.push entry
       violations := violations
       said := m.said ++ said ++ verdict.warnings }, none)

def runFor (ambient : Ambient) (inspector : Inspector) : Nat → Machine → Machine × Stop
  | budget, m =>
    if m.state.halted then (m, .halted)
    else
      match budget with
      | 0 => (m, .limit)
      | rest + 1 =>
        if m.state.program.length ≤ m.state.counter then (m, .ended)
        else
          match fetch m.state.program m.state.counter with
          | .error fault => (m, .failed fault)
          | .ok command =>
            match execute ambient inspector command m with
            | (left, some fault) => (left, .failed fault)
            | (next, none) => runFor ambient inspector rest next

/-- Runs until the count of cycles, over all runs of this machine, reaches `limit`. -/
def run (ambient : Ambient) (inspector : Inspector) (limit : Int) (m : Machine) : Machine × Stop :=
  runFor ambient inspector (limit - m.state.cycles).toNat m

/-- What a run reports: a failed one shows no cycles, no trace and no refusals. -/
structure Report where
  success : Bool
  cycles : Nat
  error : Option String
  trace : Array TraceEntry
  violations : Array Violation
  state : State

def report (m : Machine) : Stop → Report
  | .failed fault => ⟨false, 0, some fault.message, #[], #[], m.state⟩
  | _ => ⟨true, m.state.cycles, none, m.trace, m.violations, m.state⟩

def feed (m : Machine) (values : List Int) : Machine :=
  { m with state := { m.state with inputs := m.state.inputs ++ values } }

end Zkvm.Machine
