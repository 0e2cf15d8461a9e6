import Zkvm.Contract.Basic
import Zkvm.Text.Case

/-!
# Parts of the execution of an instruction

An instruction is fetched, decoded and executed, its result is written back, and the program counter
is updated.  The role of a part is its phase, its nibble, if it has one, and the cycle in which it
works.
-/
set_option autoImplicit false

namespace Zkvm.Contract.Execution

inductive Phase where
  | fetch
  | decode
  | execute
  | writeback
  | updateCounter

namespace Phase

def all : List Phase :=
  [.fetch, .decode, .execute, .writeback, .updateCounter]

def name : Phase → String
  | .fetch => "FETCH"
  | .decode => "DECODE"
  | .execute => "EXECUTE"
  | .writeback => "WRITEBACK"
  | .updateCounter => "UPDATE_PC"

def number : Phase → Nat
  | .fetch => 0
  | .decode => 1
  | .execute => 2
  | .writeback => 3
  | .updateCounter => 4

end Phase

inductive Flag where
  | zero
  | carry
  | overflow
  | negative
  | halt

namespace Flag

def all : List Flag :=
  [.zero, .carry, .overflow, .negative, .halt]

def name : Flag → String
  | .zero => "ZERO"
  | .carry => "CARRY"
  | .overflow => "OVERFLOW"
  | .negative => "NEGATIVE"
  | .halt => "HALT"

def value : Flag → String
  | .zero => "(alu_result = 0)"
  | .carry => "alu_carry_out"
  | .overflow => "alu_overflow"
  | .negative => "alu_result_sign"
  | .halt => "(opcode = 255)"

end Flag

structure Place where
  phase : Phase
  /-- The nibble, or `-1` for a part that is about no single nibble. -/
  nibble : Int := -1
  cycle : Nat := 0

instance : Role Place where
  remark place :=
    s!"# Phase: {place.phase.name}, Cycle: {place.cycle}\n" ++
      if 0 ≤ place.nibble then s!"# Nibble: {place.nibble}\n" else ""

/-- An assumption that only mentions a name. -/
def mentioned (name : String) : String :=
  s!"{name} = {name}"

end Zkvm.Contract.Execution
