import Zkvm.Machine.Bits
import Zkvm.Machine.Fault

/-!
# State of the machine

A stack of integers with its top first, a memory of `65536` cells, a program with a counter into it,
two buffers, and the records of hashing and verification.  Places in memory and in the program are
counted from the front by `0, 1, ...` and from the back by `-1, -2, ...`.
-/
set_option autoImplicit false

namespace Zkvm.Machine

structure Command where
  opcode : Opcode
  args : List Int

abbrev Memory := Vector Int 65536

structure State where
  registers : List Int := List.replicate 16 0
  stack : List Int := []
  stackPointer : Int := 0
  memory : Memory := Vector.replicate 65536 0
  counter : Int := 0
  program : List Command := []
  halted : Bool := false
  cycles : Nat := 0
  lastHash : Option Int := none
  signatures : List (Int × Bool) := []
  inputs : List Int := []
  outputs : List Int := []

def leastPlace : Int := -9223372036854775808

def greatestPlace : Int := 9223372036854775807

/-- The cell at a place: `-1` is the last one. -/
def place (use : OffRange) (address : Int) : Except OffRange (Fin 65536) :=
  if address < leastPlace ∨ greatestPlace < address then .error .number
  else if address < -65536 ∨ 65536 ≤ address then .error use
  else .ok ⟨(address % 65536).toNat, by omega⟩

/-- The cell of an address.  An address past the end is refused as invalid, one before the front as
out of range. -/
def cell (use : OffRange) (address : Int) : Except Fault (Fin 65536) :=
  if 65536 ≤ address then .error (.invalidAddress address)
  else (place use address).mapError .offRange

def fetch (program : List Command) (counter : Int) : Except Fault Command :=
  if counter < leastPlace then .error (.offRange .number)
  else
    let place := if counter < 0 then counter + program.length else counter
    if place < 0 then .error (.offRange .read)
    else
      match program[place.toNat]? with
      | some command => .ok command
      | none => .error (.offRange .read)

/-- Records the verdict on a message: a new message goes to the end, an old one keeps its place. -/
def recordSignature (message : Int) (valid : Bool) : List (Int × Bool) → List (Int × Bool)
  | [] => [(message, valid)]
  | (m, v) :: rest =>
    if m = message then (message, valid) :: rest else (m, v) :: recordSignature message valid rest

namespace State

/-- The state after an operation that leaves this stack and goes on to the next command. -/
def advance (s : State) (stack : List Int) : State :=
  { s with stack, counter := s.counter + 1 }

end State

end Zkvm.Machine
