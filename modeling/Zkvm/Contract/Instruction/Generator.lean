import Zkvm.Contract.Instruction.Arithmetic
import Zkvm.Contract.Instruction.Comparison
import Zkvm.Contract.Instruction.Crypto
import Zkvm.Contract.Instruction.System

/-!
# Contracts of all instructions
-/
set_option autoImplicit false

namespace Zkvm.Contract.Instruction

inductive Family where
  | arithmetic
  | bitwise
  | comparison
  | control
  | crypto
  | system

namespace Family

def members : Family → List String
  | .arithmetic => ["ADD", "SUB", "MUL", "DIV", "MOD"]
  | .bitwise => ["AND", "OR", "XOR", "NOT", "SHL", "SHR"]
  | .comparison => ["EQ", "NEQ", "LT", "GT", "LTE", "GTE"]
  | .control => ["JMP", "JZ", "JNZ", "CALL", "RET"]
  | .crypto => ["HASH", "VERIFY", "SIGN"]
  | .system =>
    ["NOP", "HALT", "DEBUG", "ASSERT", "LOG", "READ", "WRITE", "SEND", "RECV", "TIME", "RAND", "ID"]

def pureFamilies : List Family :=
  [.arithmetic, .bitwise, .comparison, .control, .crypto]

def all : List Family :=
  pureFamilies ++ [.system]

def ofName? : String → Option Family
  | "arithmetic" => some .arithmetic
  | "bitwise" => some .bitwise
  | "comparison" => some .comparison
  | "control flow" => some .control
  | "crypto" => some .crypto
  | "system" => some .system
  | _ => none

def plan (nibbles : Int) (operation : String) : Family → Plan Place
  | .arithmetic => Instruction.arithmetic nibbles operation
  | .bitwise => Instruction.bitwise nibbles operation
  | .comparison => Instruction.comparison nibbles operation
  | .control => Instruction.control operation
  | .crypto => Instruction.crypto operation
  | .system => Instruction.system nibbles operation

end Family

structure Generator where
  directory : String := "build/isa"
  nibbles : Int := 8
  /-- The families whose instructions are known. -/
  families : List Family := Family.all

namespace Generator

def decomposeAs (generator : Generator) (family : Family) (operation : String) :
    Except Failure (Decomposition Place) :=
  Decomposition.ofPlan operation (family.plan generator.nibbles operation)

def decompose (generator : Generator) (operation : String) : Except Failure (Decomposition Place) :=
  match generator.families.find? fun family => family.members.contains (Text.upper operation) with
  | some family => generator.decomposeAs family operation
  | none => .error (.unknown "instruction" operation)

def generate (generator : Generator) :
    List String → Except Failure (List (String × Decomposition Place)) :=
  decomposeAll generator.decompose

def save (generator : Generator) (result : Decomposition Place) : Action Unit :=
  result.save "Instruction" generator.directory

end Generator

def systemPart? : String → Option (Int → Part Place)
  | "debug" => some debugNibble
  | "assert" => some assertNibble
  | "log" => some logNibble
  | "read" => some readNibble
  | "write" => some writeNibble
  | "send" => some sendNibble
  | "recv" => some recvNibble
  | "time" => some timeNibble
  | "rand" => some randNibble
  | "id" => some idNibble
  | _ => none

/-- The parts by their titles.  A part takes what it needs of two nibbles and the name of an
operation. -/
def Generator.part? (generator : Generator) (title : String) (nibble next : Int)
    (operation : String) :
    Option (Except Failure (Part Place)) :=
  match title with
  | "nibble adder" => some (.ok (addNibble nibble))
  | "nibble subtractor" => some (.ok (subNibble nibble))
  | "carry contract" => some (.ok (carryLink nibble next operation))
  | "borrow contract" => some (.ok (borrowLink nibble next operation))
  | "nibble multiplier" => some (.ok mulByte)
  | "division lookup" => some (.ok (divisionLookup operation))
  | "bitwise nibble" => some (bitwiseNibble nibble operation)
  | "not nibble" => some (.ok (notNibble nibble))
  | "shift operation" => some (.ok (shiftMux operation))
  | "nibble comparator" => some (.ok (comparisonNibble nibble operation))
  | "comparison aggregator" => some (.ok (comparisonAggregator generator.nibbles operation))
  | "jump contract" => some (.ok jump)
  | "conditional jump" => some (.ok (conditionalJump operation))
  | "call contract" => some (.ok callPart)
  | "return contract" => some (.ok returnPart)
  | "hash contract" => some (.ok hashPart)
  | "verify contract" => some (.ok verifyPart)
  | "sign contract" => some (.ok signPart)
  | "nop component" => some (.ok nopPart)
  | "halt component" => some (.ok haltPart)
  | other =>
    match Text.split ' ' other with
    | [word, "nibble"] => (systemPart? word).map fun part => .ok (part nibble)
    | _ => none

def demonstrate (generator : Generator) : Action Unit := do
  Action.say "Generating ISA components..."
  let results ← Action.ofExcept
    (generator.generate ["ADD", "SUB", "AND", "XOR", "LT", "JMP", "HASH"])
  results.forM fun (name, result) => do
    Action.sayAll [s!"\n{name}:", s!"  Components: {result.parts.length}",
      s!"  Files: {result.files.length}", s!"  Total Constraints: {result.constraintCount}"]
    generator.save result
  Action.say "\nGeneration complete!"

end Zkvm.Contract.Instruction
