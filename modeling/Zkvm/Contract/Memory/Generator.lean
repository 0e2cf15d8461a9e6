import Zkvm.Contract.Memory.Access
import Zkvm.Contract.Memory.Stack

/-!
# Contracts of all operations on memory
-/
set_option autoImplicit false

namespace Zkvm.Contract.Memory

structure Generator where
  directory : String := "build/memory"
  nibbles : Int := 8

namespace Generator

inductive Kind where
  | access
  | stackAccess
  | pushOrPop
  | dupOrSwap

def Kind.plan (nibbles : Int) (operation : String) : Kind → Plan Place
  | .access => Memory.access nibbles operation
  | .stackAccess => Memory.stackAccess nibbles operation
  | .pushOrPop => Memory.pushOrPop nibbles operation
  | .dupOrSwap => Memory.dupOrSwap nibbles operation

def Kind.ofName? : String → Option Kind
  | "memory access" => some .access
  | "stack memory" => some .stackAccess
  | "stack pointer" => some .pushOrPop
  | "stack manipulation" => some .dupOrSwap
  | _ => none

def kindOf? (operation : String) : Option Kind :=
  match Text.upper operation with
  | "LOAD" | "STORE" => some .access
  | "MLOAD" | "MSTORE" => some .stackAccess
  | "PUSH" | "POP" => some .pushOrPop
  | "DUP" | "SWAP" => some .dupOrSwap
  | _ => none

def decomposeAs (generator : Generator) (kind : Kind) (operation : String) :
    Except Failure (Decomposition Place) :=
  Decomposition.ofPlan operation (kind.plan generator.nibbles operation)

def decompose (generator : Generator) (operation : String) : Except Failure (Decomposition Place) :=
  match kindOf? operation with
  | some kind => generator.decomposeAs kind operation
  | none => .error (.unknown "memory operation" operation)

def generate (generator : Generator) :
    List String → Except Failure (List (String × Decomposition Place)) :=
  decomposeAll generator.decompose

def part? (generator : Generator) (title : String) (nibble : Int) (operation : String) :
    Option (Part Place) :=
  match title with
  | "address nibble" => some (addressNibble nibble operation)
  | "address validator" => some (addressCheck generator.nibbles operation)
  | "load data nibble" => some (loadNibble nibble)
  | "store data nibble" => some (storeNibble nibble)
  | "memory consistency" => some (consistencyCheck operation)
  | "stack offset nibble" => some (offsetNibble nibble operation)
  | "stack bounds check" => some (boundsCheck operation)
  | "stack load nibble" => some (stackLoadNibble nibble)
  | "stack store nibble" => some (stackStoreNibble nibble)
  | "sp update nibble" => some (pointerNibble nibble operation)
  | "stack check" => some (roomCheck operation)
  | "push data nibble" => some (pushNibble nibble)
  | "pop data nibble" => some (popNibble nibble)
  | "dup nibble" => some (dupNibble nibble)
  | "dup sp update" => some dupPointer
  | "swap nibble a" => some (swapFirst nibble)
  | "swap nibble b" => some (swapSecond nibble)
  | "swap coordination" => some (swapCheck generator.nibbles)
  | _ => none

def save (generator : Generator) (result : Decomposition Place) : Action Unit :=
  result.save "Memory Operation" generator.directory

end Generator

end Zkvm.Contract.Memory
