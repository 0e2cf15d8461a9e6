import Zkvm.Contract.Instruction.Basic

/-!
# Contracts of jumps, calls and returns

They are stated on the lowest eight bits of the program counter and the stack pointer.
-/
set_option autoImplicit false

namespace Zkvm.Contract.Instruction

open Term (wire)

/-- The lowest eight bits of several rows are zero, bit by bit. -/
def byteInputs (rows : List String) : List Clause :=
  (List.range 8).flatMap fun (i : Nat) => rows.map fun row => .fixWire row i false

def byteCopy (row source : String) : List Clause :=
  (List.range 8).map fun (i : Nat) => .wire row i (wire source i)

def jump : Part Place :=
  single "JMP" <| ofClauses "jmp" ["valid=1"] ["jumped"] (byteInputs ["p", "t"] ++ byteCopy "n" "t")

/-- The target if the condition holds, and four beyond the counter otherwise. -/
def branchTo (condition : Term) (i : Nat) : Term :=
  let onward : Term := if i = 2 then (wire "p" i).flipped else wire "p" i
  .group (.group (condition &&& wire "t" i) ||| .group (.flipped (.group condition) &&& onward))

/-- A jump if the flag is set, or if it is not for any other operation than `JZ`. -/
def conditionalJump (operation : String) : Part Place :=
  let flag : Term := .var "z"
  let condition := if operation = "JZ" then flag else flag.flipped
  single operation <| ofClauses (Text.lower operation) ["ok=1"] ["branched"]
    ([.fix "z" false] ++ byteInputs ["p", "t"] ++
      (List.range 8).map fun (i : Nat) => .wire "n" i (branchTo condition i))

/-- The stack pointer with its lowest bit flipped. -/
def movedPointer : List Clause :=
  (List.range 8).map fun (i : Nat) =>
    .wire "q" i (if i = 0 then (wire "s" i).flipped else wire "s" i)

def callPart : Part Place :=
  single "CALL" <| ofClauses "call" ["ok=1"] ["called"]
    (byteInputs ["p", "s", "t"] ++ [.fix "saved" true] ++ movedPointer ++ byteCopy "n" "t")

def returnPart : Part Place :=
  single "RET" <| ofClauses "ret" ["ok=1"] ["returned"]
    (byteInputs ["s", "r"] ++ byteCopy "n" "r" ++ movedPointer)

def control (operation : String) : Plan Place :=
  match Text.upper operation with
  | "JMP" => [("jmp", jump)]
  | "JZ" => [(Text.lower operation, conditionalJump "JZ")]
  | "JNZ" => [(Text.lower operation, conditionalJump "JNZ")]
  | "CALL" => [("call", callPart)]
  | "RET" => [("ret", returnPart)]
  | _ => []

end Zkvm.Contract.Instruction
