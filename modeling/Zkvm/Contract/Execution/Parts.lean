import Zkvm.Contract.Execution.Basic

/-!
# The parts of an execution

The registers and the program counter are handled nibble by nibble.
-/
set_option autoImplicit false

namespace Zkvm.Contract.Execution

def counterFetch (nibble : Int) : Part Place where
  name := s!"PC Nibble {nibble} Fetch"
  contract :=
    let bit (i : Int) := s!"pc_bit{nibble * 4 + i}"
    { name := s!"pc_nibble_fetch_{nibble}"
      assumptions := [mentioned s!"pc{nibble}"]
      guarantees := [s!"pc_nibble_{nibble}_fetched"]
      names := [s!"pc{nibble}", bit 0, bit 1, bit 2, bit 3]
      constraints := [s!"pc{nibble} = ({bit 0} + {bit 1}*2 + {bit 2}*4 + {bit 3}*8)"] }
  role := { phase := .fetch, nibble }

/-- Nibbles are numbered from zero. -/
def counterFetch? (nibble : Int) : Except Failure (Part Place) :=
  if nibble < 0 then .error .negativeShift else .ok (counterFetch nibble)

def instructionFetch : Part Place where
  name := "Instruction Fetch"
  contract :=
    { name := "instruction_fetch"
      assumptions := [mentioned "pc_full", "mem_addr = pc_full"]
      guarantees := ["instruction_fetched"]
      names := ["pc_full", "inst", "mem_addr", "mem_data"]
      constraints := ["inst = mem_data", "mem_addr = pc_full"] }
  role := { phase := .fetch }

def decodePart : Part Place where
  name := "Instruction Decode"
  contract :=
    { name := "instruction_decode"
      assumptions := [mentioned "inst"]
      guarantees := ["instruction_decoded"]
      names := ["inst", "opcode", "rd", "rs1", "rs2", "imm"]
      constraints :=
        ["opcode = (inst & 127)", "rd = ((inst & 3968) / 128)", "rs1 = ((inst & 1015808) / 4096)",
        "rs2 = ((inst & 31457280) / 1048576)"] }
  role := { phase := .decode, cycle := 1 }

/-- A nibble of a register takes the result if the register is the destination and writing is
enabled. -/
def registerUpdate (register nibble : Int) : Part Place where
  name := s!"Register R{register} Nibble {nibble} Update"
  contract :=
    let old := s!"r{register}_n{nibble}"
    { name := s!"register_{register}_nibble_{nibble}_update"
      assumptions := [mentioned old, mentioned "write_enable"]
      guarantees := [s!"register_{register}_nibble_{nibble}_updated"]
      names := [old, s!"{old}_new", s!"alu_out_n{nibble}", "rd", "write_enable"]
      constraints := [s!"{old}_new = ((rd = {register}) & write_enable) * alu_out_n{nibble} + " ++
        s!"((rd' | {register}) | write_enable') * {old}"] }
  role := { phase := .writeback, nibble, cycle := 3 }

def flagUpdate (flag : Flag) : Part Place where
  name := s!"Flag {flag.name} Update"
  contract :=
    let word := Text.lower flag.name
    { name := s!"flag_{word}_update"
      assumptions := [mentioned s!"flag_{word}"]
      guarantees := [s!"flag_{word}_updated"]
      names := [s!"flag_{word}", s!"flag_{word}_new", "alu_result", "opcode"]
      constraints := [s!"flag_{word}_new = {flag.value}"] }
  role := { phase := .execute, cycle := 2 }

/-- A nibble of the counter goes to the target of a branch that is taken, and onward otherwise. -/
def counterUpdate (nibble : Int) : Part Place where
  name := s!"PC Nibble {nibble} Update"
  contract :=
    let step : Nat := if nibble = 0 then 1 else 0
    { name := s!"pc_nibble_{nibble}_update"
      assumptions := [mentioned s!"pc_n{nibble}"]
      guarantees := [s!"pc_nibble_{nibble}_updated"]
      names :=
        [s!"pc_n{nibble}", s!"pc_n{nibble}_new", s!"pc_inc_n{nibble}", s!"branch_target_n{nibble}",
        "branch_taken"]
      constraints := [s!"pc_inc_n{nibble} = pc_n{nibble} + {step}",
        s!"pc_n{nibble}_new = branch_taken * branch_target_n{nibble} + " ++
          s!"branch_taken' * pc_inc_n{nibble}"] }
  role := { phase := .updateCounter, nibble, cycle := 4 }

/-- A record of the state; the moment `pre` is before the instruction. -/
def stateCapture (moment : String) : Part Place where
  name := s!"State Capture {Text.upper moment}"
  contract :=
    let registers := List.range 4
    { name := s!"state_capture_{moment}"
      assumptions := ["capture_enable = 1"]
      guarantees := [s!"state_{moment}_captured"]
      names := ["pc_snapshot", "flags_snapshot"] ++ registers.map fun i => s!"r{i}_snapshot"
      constraints := ["pc_snapshot = pc_full",
        "flags_snapshot = (flag_zero + flag_carry*2 + flag_overflow*4 + flag_negative*8)"] ++
        registers.map fun i => s!"r{i}_snapshot = r{i}_full" }
  role := if moment = "pre" then { phase := .fetch } else { phase := .updateCounter, cycle := 5 }

def stateTransition : Part Place where
  name := "State Transition Validation"
  contract :=
    { name := "state_transition"
      assumptions := [mentioned "pc_pre", mentioned "pc_post"]
      guarantees := ["state_transition_valid"]
      names := ["pc_pre", "pc_post", "transition_valid"]
      constraints := ["transition_valid = ((pc_post = pc_pre + 4) | branch_taken)"] }
  role := { phase := .updateCounter, cycle := 5 }

def traceStart : Part Place where
  name := "Trace Initialization"
  contract :=
    { name := "trace_init"
      assumptions := ["trace_enable = 1"]
      guarantees := ["trace_initialized"]
      names := ["trace_ptr", "trace_size", "trace_enable"]
      constraints := ["trace_ptr = 0", "trace_size = 0"] }
  role := { phase := .fetch }

def traceEntry (phase : Phase) : Part Place where
  name := s!"Trace {phase.name} Entry"
  contract :=
    let word := Text.lower phase.name
    { name := s!"trace_{word}"
      assumptions := ["trace_enable = 1"]
      guarantees := [s!"trace_{word}_recorded"]
      names := ["trace_ptr", s!"trace_{word}_pc", s!"trace_{word}_data", "cycle_count"]
      constraints :=
        [s!"trace_{word}_pc = pc_full", s!"trace_{word}_data = phase_data_{phase.number}",
        "trace_ptr = trace_ptr + 1"] }
  role := { phase, cycle := phase.number }

def traceCheck : Part Place where
  name := "Trace Consistency Check"
  contract :=
    { name := "trace_consistency"
      assumptions := [mentioned "trace_start", mentioned "trace_end"]
      guarantees := ["trace_consistent"]
      names := ["trace_start", "trace_end", "trace_valid"]
      constraints := ["trace_valid = (trace_end >= trace_start)",
        "trace_valid = trace_valid & ((trace_end + trace_start + 1) = trace_size * 2)"] }
  role := { phase := .updateCounter, cycle := 5 }

end Zkvm.Contract.Execution
