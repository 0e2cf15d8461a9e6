import Zkvm.Showcase.Basic

/-!
# Demonstrations of a small instruction set

Eight instructions, some of them by lookup and some by constraints: how they are decoded and what
they do.
-/
set_option autoImplicit false

namespace Zkvm.Showcase.Instructions

def decoder : Demo := .ofStatement "instruction_decoder" "isa_decoder.tau"
  ["# Instruction Decoder", "# Decodes 3-bit opcode and sets execution flags", ""]
  (row "op" "000" ++
    ["is_lut8=((op0+1)&(op1+1)&(op2+1))", "is_lut16=(op0&(op1+1)&(op2+1))",
      "is_fold=((op0+1)&op1&(op2+1))", "is_comm=(op0&op1&(op2+1))", "is_load=((op0+1)&(op1+1)&op2)",
      "is_store=(op0&(op1+1)&op2)", "is_cond=((op0+1)&op1&op2)", "is_halt=(op0&op1&op2)",
      "valid=(is_lut8+(is_lut16|is_fold|is_comm|is_load|is_store|is_cond|is_halt))"])

def lookup : Demo := .ofStatement "lut8_instruction" "isa_lut8.tau"
  ["# LUT8 Instruction: 8-bit lookup operation", "# Format: LUT8 rd, rs1, rs2, table_id", "",
    "# Instruction fields"]
  (row "op" "000" ++ row "rs1" "1011" ++ row "rs2" "0110" ++ row "tid" "00" ++
    ["use_and=((tid0+1)&(tid1+1))", "use_or=(tid0&(tid1+1))", "use_xor=((tid0+1)&tid1)",
      "use_add=(tid0&tid1)"] ++
    (List.range 4).flatMap (fun i =>
      [s!"and{i}=(rs1{i}&rs2{i})", s!"or{i}=(rs1{i}|rs2{i})", s!"xor{i}=(rs1{i}+rs2{i})"]) ++
    each 4 (fun i => s!"rd{i}=((use_and&and{i})|(use_or&or{i})|(use_xor&xor{i}))") ++
    ["result=(rd0|rd1|rd2|rd3)"])

def fold : Demo := .ofStatement "fold_instruction" "isa_fold.tau"
  ["# FOLD Instruction: Fold current instance with accumulator",
    "# Updates accumulator with folded result", "", "# Current instance (4-bit demo)"]
  (row "curr" "1010" ++ row "acc" "0101" ++ row "beta" "1000" ++
    each 4 (fun i => s!"new_acc{i}=(acc{i}+(beta0&curr{i}))") ++ row "noise" "0010" ++
    each 4 (fun i => s!"new_noise{i}=(noise{i}|(beta0&curr{i}&acc{i}))") ++
    ["valid=((new_acc0|new_acc1|new_acc2|new_acc3)&(new_noise2))"])

def commit : Demo := .ofStatement "comm_instruction" "isa_comm.tau"
  ["# COMM Instruction: Commit to value using RC hash",
    "# Produces commitment = RC_hash(value || randomness)", "", "# Value to commit (8-bit)"]
  (row "val" "10110101" ++ row "r" "01011010" ++ each 8 (fun i => s!"h{i}=(val{i}+r{i})") ++
    ["comm=(h0|h1|h2|h3|h4|h5|h6|h7)"])

def memory : Demo := .ofStatement "memory_instructions" "isa_memory.tau"
  ["# Memory Instructions: LOAD and STORE",
    "# Simple memory model with 4 locations (2-bit address)", "",
    "# Memory state (4 locations x 4 bits each)"]
  (row "m0" "1010" ++ row "m1" "0101" ++ row "m2" "1100" ++ row "m3" "0011" ++ row "addr" "01" ++
    ["is_load=1", "is_store=0", "sel0=((addr0+1)&(addr1+1))", "sel1=(addr0&(addr1+1))",
      "sel2=((addr0+1)&addr1)", "sel3=(addr0&addr1)"] ++
    each 4 (fun i => s!"loaded{i}=((sel0&m0{i})|(sel1&m1{i})|(sel2&m2{i})|(sel3&m3{i}))") ++
    ["result=(loaded0&loaded1&(loaded2+1)&(loaded3+1))"])

def trace : Demo := .ofStatement "execution_trace" "isa_trace.tau"
  ["# Execution Trace: 3 instruction sequence", "# ADD, STORE, HALT", "",
    "# Instruction 0: LUT8 (ADD) r1 = r2 + r3"]
  (row "pc" "00" ++ row "op0_" "000" ++ row "tid" "11" ++ row "r2" "1010" ++ row "r3" "0100" ++
    row "r1" "1110" ++
    ["pc0_next=1", "pc1_next=0"] ++ row "op1_" "101" ++ row "addr" "00" ++
    ["m00_new=1", "m01_new=1", "m02_new=1", "m03_new=0", "pc0_final=0", "pc1_final=1"] ++
      row "op2_" "111" ++
    ["halted=1", "valid=(r10&r11&r12&(r13+1)&m00_new&m01_new&m02_new&(m03_new+1)&halted)"])

def guide : String := Text.lines [
  "# TauFoldZKVM Instruction Set Architecture", "", "## Overview", "",
  "8-instruction ISA mixing lookup-based and constraint-based operations:", "",
  "| Opcode | Mnemonic | Description | Type |", "|--------|----------|-------------|------|",
  "| 000 | LUT8 | 8-bit lookup operation | Lookup |",
  "| 001 | LUT16 | 16-bit decomposed lookup | Lookup |",
  "| 010 | FOLD | Fold current state | Constraint |",
  "| 011 | COMM | Commit to value | Constraint |", "| 100 | LOAD | Memory read | Constraint |",
  "| 101 | STORE | Memory write | Constraint |",
  "| 110 | COND | Conditional execution | Constraint |",
  "| 111 | HALT | Stop execution | Constraint |", "", "## Instruction Formats", "",
  "### LUT8/LUT16", "```", "LUT8  rd, rs1, rs2, table_id", "LUT16 rd, rs1, rs2, table_id", "```",
  "- table_id selects operation (AND, OR, XOR, ADD, etc.)", "- Result stored in rd", "", "### FOLD",
  "```", "FOLD instance", "```", "- Folds current instance with accumulator",
  "- Updates noise vector", "", "### COMM", "```", "COMM rd, rs, randomness", "```",
  "- Commits to value using RC hash", "- Stores commitment in rd", "", "### Memory Operations",
  "```", "LOAD  rd, addr", "STORE rs, addr", "```", "- Simple memory model",
  "- Address space depends on configuration", "", "### Control Flow", "```",
  "COND flag, target", "HALT", "```", "- COND: Branch if flag is set", "- HALT: Stop execution", "",
  "## Implementation Files", "", "1. **isa_decoder.tau** - Instruction decoding logic",
  "2. **isa_lut8.tau** - LUT8 instruction execution",
  "3. **isa_fold.tau** - FOLD instruction for ProtoStar",
  "4. **isa_comm.tau** - Commitment instruction", "5. **isa_memory.tau** - LOAD/STORE operations",
  "6. **isa_trace.tau** - Example execution trace", "", "## Constraint Analysis", "",
  "- Instruction decode: ~20 constraints", "- LUT8/16 operation: ~50 constraints (using lookups)",
  "- FOLD operation: ~100 constraints", "- Memory access: ~40 constraints",
  "- Per instruction average: ~60 constraints", "", "## Design Rationale", "",
  "1. **Mixed approach**: Lookups for arithmetic, constraints for control",
  "2. **ProtoStar native**: FOLD instruction for efficient accumulation",
  "3. **Commitment built-in**: COMM for zkVM-specific operations",
  "4. **Simple memory**: Constraint-based for flexibility",
  "5. **Minimal ISA**: 8 instructions sufficient for universality", ""]

def collection : Collection where
  demos := [decoder, lookup, fold, commit, memory, trace]
  guide := guide

end Zkvm.Showcase.Instructions
