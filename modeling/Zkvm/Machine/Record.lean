import Zkvm.Json.Fields
import Zkvm.Machine.Program

/-!
# Records of the machine

What a machine shows of itself, as structured data.
-/
set_option autoImplicit false

namespace Zkvm.Machine

def Source.ofJson (program : Json) : Source :=
  program.toItems.map fun line =>
    match line.toItems with
    | [name, args] => (name.toText, args.toInts)
    | _ => ("", [])

def Violation.json (v : Violation) : Json := .obj [
  ("cycle", .nat v.cycle), ("instruction", .str v.opcode.name), ("inputs", .ints v.inputs),
  ("outputs", .ints v.outputs)]

def violationsJson (records : Array Violation) : Json :=
  .arr (records.toList.map Violation.json)

/-- The stack is shown from its bottom. -/
def State.json (s : State) : Json := .obj [
  ("registers", .ints s.registers), ("stack", .ints s.stack.reverse),
  ("stack_pointer", .int s.stackPointer), ("memory_size", .nat s.memory.size),
  ("program_counter", .int s.counter), ("halted", .bool s.halted), ("cycle_count", .nat s.cycles),
  ("last_hash", .optional .int s.lastHash),
  ("signatures", .arr (s.signatures.map fun (message, valid) => .arr [.int message, .bool valid])),
  ("output_buffer", .ints s.outputs)]

def TraceEntry.json (e : TraceEntry) : Json :=
  .arr [.nat e.cycle, .int e.counter, .str e.command.opcode.name, .ints e.command.args,
    .nat e.depth]

/-- The fields of a report, with the whole trace or with its length. -/
def Report.fields (r : Report) (whole : Bool) : List (String × Json) := [
  ("success", .bool r.success), ("cycles", .nat r.cycles), ("error", .optional .str r.error),
  ("constraint_violations", violationsJson r.violations), ("final_state", r.state.json),
  if whole then ("trace", .arr (r.trace.toList.map TraceEntry.json))
  else ("trace_length", .nat r.trace.size)]

/-- The cells that are not zero, with their addresses. -/
def Memory.json (memory : Memory) : Json :=
  .arr ((memory.toList.zipIdx.filter fun (value, _) => value ≠ 0).map fun (value, address) =>
    .arr [.nat address, .int value])

def dump (m : Machine) : List (String × Json) := [
  ("memory", m.state.memory.json), ("input_buffer", .ints m.state.inputs),
  ("program", .arr (m.state.program.map fun c => .arr [.str c.opcode.name, .ints c.args])),
  ("trace_length", .nat m.trace.size), ("violations", violationsJson m.violations)]

end Zkvm.Machine
