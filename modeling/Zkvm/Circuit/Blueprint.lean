import Zkvm.Circuit.Compiler

/-!
# The circuit of a whole machine

Seven modules: tables of operations on bytes, the decoder, the arithmetic unit, a small memory,
folding, the step of execution, and verification.  The word size is a parameter.
-/
set_option autoImplicit false

namespace Zkvm.Circuit

open Formula
open Term (wire joined sum carry)

structure Wired where
  vars : List Variable
  clause : Clause

def Wired.constraint (wired : Wired) : Constraint :=
  { kind := .boolean, vars := wired.vars, expression := wired.clause.text }

def input (name : String) (width : Int) : Variable := { name, width, isInput := true }

def output (name : String) (width : Int) : Variable := { name, width, isOutput := true }

def eight : List Nat := List.range 8

namespace Blueprint

def moduleOf (name : String) (vars : List Variable) (wired : List Wired)
    (dependencies : Option (List String) := none) : Module :=
  ⟨name, vars, wired.map Wired.constraint, dependencies⟩

def matching (name : String) (value : Int) (width : Nat) : List Term :=
  (List.range width).map fun (i : Nat) =>
    if bitOf value i then wire name i else (wire name i).flipped

structure TableVariables where
  a : Variable
  b : Variable
  r : Variable

def tableVariables (op : String) : TableVariables :=
  ⟨input s!"{op}_a" 8, input s!"{op}_b" 8, output s!"{op}_r" 8⟩

def addTable (v : TableVariables) : List Wired :=
  let first : List Wired := [
    ⟨[v.a, v.b, v.r], .wire "s" 0 (.group (wire v.a.name 0 ^^^ wire v.b.name 0))⟩,
    ⟨[v.a, v.b], .wire "c" 0 (.group (wire v.a.name 0 &&& wire v.b.name 0))⟩]
  let later : List Wired := (laterPlaces 8).flatMap fun (i : Nat) =>
    let a := wire v.a.name i
    let b := wire v.b.name i
    let before := wire "c" (i - 1)
    [⟨[v.a, v.b], .wire "s" i (sum a b before)⟩, ⟨[v.a, v.b], .wire "c" i (carry a b before)⟩]
  first ++ later ++ eight.map fun (i : Nat) => ⟨[v.r], .wire v.r.name i (wire "s" i)⟩

def gateTable (v : TableVariables) (gate : Gate) : List Wired :=
  eight.map fun (i : Nat) =>
    ⟨[v.a, v.b, v.r], .wire v.r.name i (.group (.gate gate (wire v.a.name i) (wire v.b.name i)))⟩

/-- Shifts by one place if the lowest bit of `b` is set; `source` gives the place that a bit comes
from. -/
def shiftTable (v : TableVariables) (source : Nat → Nat) : List Wired :=
  let amount := wire v.b.name 0
  eight.map fun (i : Nat) =>
    let moved : Term := .group (amount &&& wire v.a.name (source i))
    let kept : Term := .group (.group (.group amount ^^^ .bit true) &&& wire v.a.name i)
    ⟨[v.a, v.b, v.r], .wire v.r.name i (.group (moved ||| kept))⟩

/-- The clauses of a table; subtraction and multiplication have none. -/
def table (op : String) : List Wired :=
  let v := tableVariables op
  match op with
  | "add" => addTable v
  | "and" => gateTable v .and
  | "or" => gateTable v .or
  | "xor" => gateTable v .xor
  | "shl" => shiftTable v fun i => i - 1
  | "shr" => shiftTable v fun i => if i < 7 then i + 1 else 7
  | _ => []

def tableNames : List String := ["add", "sub", "mul", "and", "or", "xor", "shl", "shr"]

def lookupTables : Module :=
  moduleOf "lookup_tables"
    (tableNames.flatMap fun op => let v := tableVariables op; [v.a, v.b, v.r])
    (tableNames.flatMap table)

def opcodes : List (String × Int) := [
  ("add", 0x00), ("sub", 0x01), ("mul", 0x02), ("div", 0x03),
  ("and", 0x10), ("or", 0x11), ("xor", 0x12), ("not", 0x13), ("shl", 0x14), ("shr", 0x15),
  ("load", 0x20), ("store", 0x21), ("push", 0x22), ("pop", 0x23),
  ("jmp", 0x30), ("jz", 0x31), ("jnz", 0x32), ("call", 0x33), ("ret", 0x34),
  ("fold", 0x40), ("comm", 0x41), ("hash", 0x42), ("verify", 0x43), ("halt", 0xff)]

/-- One flag for every operation, true if the code is its own; and whether any flag is set. -/
def decoder : Module :=
  let opcode := input "opcode" 8
  let flags := opcodes.map fun (name, _) => output s!"is_{name}" 1
  let decoded : List Wired := opcodes.map fun (name, code) =>
    ⟨[opcode, output s!"is_{name}" 1],
      .define s!"is_{name}0" (.group (joined .wideAnd (matching "opcode" code 8)))⟩
  let valid : Wired :=
    ⟨flags, .define "valid_decode"
      (.group (joined .wideOr (opcodes.map fun (name, _) => .var s!"is_{name}0")))⟩
  moduleOf "instruction_decoder" (opcode :: flags) (decoded ++ [valid]) (some ["lookup_tables"])

def alu (wordSize : Int) : Module :=
  let a := input "alu_a" wordSize
  let b := input "alu_b" wordSize
  let op := input "alu_op" 4
  let result := output "alu_result" wordSize
  let flags := output "alu_flags" 4
  let chunk (n : Nat) : List Wired :=
    let base := n * 8
    (eight.flatMap fun (i : Nat) => [
      ⟨[a, b], .define s!"chunk{n}_a{i}" (wire "alu_a" (base + i))⟩,
      ⟨[a, b], .define s!"chunk{n}_b{i}" (wire "alu_b" (base + i))⟩]) ++
    [⟨[op],
      .wire "use_add" n
        (.group (joined .and ((List.range 4).map fun (i : Nat) => (wire "alu_op" i).flipped)))⟩] ++
    eight.map fun (i : Nat) =>
      ⟨[result], .wire "alu_result" (base + i) (.group (wire "use_add" n &&& wire "add_r" i))⟩
  let zero : List Term :=
    ((places wordSize).take 8).map fun (i : Nat) => (wire "alu_result" i).flipped
  moduleOf "alu" [a, b, op, result, flags]
    ((places (Int.fdiv wordSize 8)).flatMap chunk ++
      [⟨[flags], .define "alu_flags0" (.group (joined .wideAnd zero))⟩])
    (some ["lookup_tables"])

def memorySize : Nat := 16

def memoryBit (word bit : Nat) : String :=
  s!"mem{word}_{bit}"

def memoryVariables (wordSize : Int) : List Variable :=
  [input "mem_addr" 16, input "mem_data_in" wordSize, output "mem_data_out" wordSize,
    input "mem_we" 1] ++
    (List.range memorySize).flatMap fun (i : Nat) =>
      (places wordSize).map fun (j : Nat) => { name := memoryBit i j, width := 1 }

def readPart (bit word : Nat) : Term :=
  .group (wire "sel_mem" word &&& .var (memoryBit word bit))

/-- One bit that is read: a choice among all words, cut into two halves if its text would be too
long. -/
def readBit (wordSize : Int) (bit : Nat) : List Wired :=
  let out := [output "mem_data_out" wordSize]
  let parts := (List.range memorySize).map (readPart bit)
  let whole := joined .wideOr parts
  let half := memorySize / 2
  if whole.text.length > 600 then [
    ⟨memoryVariables wordSize, .wire "read_low" bit (.group (joined .wideOr (parts.take half)))⟩,
    ⟨memoryVariables wordSize, .wire "read_high" bit (.group (joined .wideOr (parts.drop half)))⟩,
    ⟨out, .wire "mem_data_out" bit (.group (wire "read_low" bit ||| wire "read_high" bit))⟩]
  else [⟨out, .wire "mem_data_out" bit (.group whole)⟩]

def memoryWired (wordSize : Int) : List Wired :=
  ((List.range memorySize).map fun (i : Nat) =>
    ⟨[input "mem_addr" 16],
      .wire "sel_mem" i (.group (joined .wideAnd (matching "mem_addr" i 4)))⟩) ++
    (places wordSize).flatMap (readBit wordSize)

def memory (wordSize : Int) : Module :=
  moduleOf "memory" (memoryVariables wordSize) (memoryWired wordSize)

def folding : Module :=
  let curr := input "fold_curr" 128
  let acc := input "fold_acc" 128
  let beta := input "fold_beta" 8
  let noise := input "fold_noise" 64
  let newAcc := output "fold_new_acc" 128
  let newNoise := output "fold_new_noise" 64
  let challenge := wire "fold_beta" 0
  moduleOf "folding" [curr, acc, beta, noise, newAcc, newNoise]
    (((List.range 128).map fun (i : Nat) =>
      ⟨[acc, curr, beta, newAcc], .wire "fold_new_acc" i
        (.group (wire "fold_acc" i ^^^ .group (challenge &&& wire "fold_curr" i)))⟩) ++
    (List.range 64).map fun (i : Nat) =>
      ⟨[noise, beta, newNoise], .wire "fold_new_noise" i
        (.group (wire "fold_noise" i |||
          .group (challenge &&& wire "fold_curr" i &&& wire "fold_acc" i)))⟩)

def execution (wordSize : Int) : Module :=
  let pc := input "pc" 16
  let nextPc := output "next_pc" 16
  let opcode := input "inst_opcode" 8
  let registers := (List.range 16).flatMap fun (i : Nat) =>
    [input s!"reg{i}" wordSize, output s!"next_reg{i}" wordSize]
  let isAdd : Term := .var "is_add"
  moduleOf "execution"
    ([pc, nextPc, opcode, input "inst_rd" 4, input "inst_rs1" 4, input "inst_rs2" 4,
      input "inst_imm" 16] ++
      registers)
    (⟨[opcode], .define "is_add" (.group (joined .wideAnd (matching "inst_opcode" 0 8)))⟩ ::
      (List.range 16).map fun (i : Nat) =>
        let next := if i = 2 then (wire "pc" i).flipped else wire "pc" i
        ⟨[pc, nextPc], .wire "next_pc" i (.group (isAdd &&& next))⟩)
    (some ["instruction_decoder", "alu", "memory"])

def verification : Module :=
  let commitment := input "proof_commitment" 256
  let witness := input "proof_witness" 512
  let valid := output "proof_valid" 1
  moduleOf "verification" [commitment, witness, input "public_input" 128, valid]
    [⟨[commitment, witness, valid], .define "proof_valid0"
      (.group (wire "proof_commitment" 0 ^^^ wire "proof_witness" 0 ^^^ .bit true))⟩]
    (some ["folding"])

def modules (wordSize : Int) : List Module :=
  [lookupTables, decoder, alu wordSize, memory wordSize, folding, execution wordSize, verification]

def directory : String := "build/zkvm"

def build (wordSize : Int) : Session Compiler (List (String × List String)) := do
  Session.update fun compiler => (modules wordSize).foldl Compiler.register compiler
  compileAll

def packed (code first second third : Int) : Int :=
  code * 16777216 + first * 65536 + second * 256 + third

def testProgram : List Int :=
  [packed 0x00 1 2 3, packed 0x21 1 4 0, packed 0x20 5 4 0, packed 0xff 0 0 0]

def buildAndList : Action Unit := do
  Action.say "Building TauFoldZKVM..."
  let compiler ← Compiler.openAt directory
  let w ← get
  let (outcome, _, after) := (build 32).runIn compiler w
  set after
  let results ← Action.ofExcept outcome
  Action.sayAll ["\nCompilation Results:", Text.repeated 50 '=']
  results.forM fun (name, files) => do
    Action.say s!"\n{name}:"
    Action.sayAll (files.map (s!"  - {·}"))
  let count := results.foldl (fun sum (_, files) => sum + files.length) 0
  Action.sayAll [s!"\nTotal files generated: {count}",
    s!"\nTest program generated: {testProgram.length} instructions",
    "\nBuild manifest: build/zkvm/manifest.json"]

end Blueprint

end Zkvm.Circuit
