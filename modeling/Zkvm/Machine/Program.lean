import Zkvm.Machine.Run

/-!
# Programs

A program is written as a list of names with arguments.  Loading looks every name up before anything
is changed: the first unknown name refuses the whole program.
-/
set_option autoImplicit false

namespace Zkvm.Machine

structure UnknownOperation where
  spelling : String

def UnknownOperation.message (unknown : UnknownOperation) : String :=
  s!"Unknown instruction: {unknown.spelling}"

abbrev Source := List (String × List Int)

def parse : Source → Except UnknownOperation (List Command)
  | [] => .ok []
  | (spelling, args) :: rest =>
    match Opcode.ofSpelling? spelling with
    | none => .error ⟨spelling⟩
    | some opcode => (parse rest).map (⟨opcode, args⟩ :: ·)

/-- Puts a program in place of the old one and goes to its start; stack, memory, buffers, counts and
records stay. -/
def load? (m : Machine) (source : Source) : Except UnknownOperation Machine :=
  (parse source).map fun program =>
    { m with state := { m.state with program, counter := 0, halted := false } }

def sumProgram : Source := [
  ("push", [42]), ("push", [58]), ("add", []), ("dup", []), ("log", []), ("halt", [])]

/-- Ten rounds of a loop that is meant to step along the Fibonacci numbers. -/
def fibonacciProgram : Source := [
  ("push", [0]), ("push", [1]), ("push", [10]),
  ("dup", []), ("jz", [15]),
  ("swap", []), ("dup", []), ("swap", []), ("add", []),
  ("swap", []), ("push", [1]), ("sub", []),
  ("jmp", [3]),
  ("log", []), ("halt", [])]

end Zkvm.Machine
