import Zkvm.Contract.Instruction.Basic

/-!
# Contracts of operations on bits and of shifts
-/
set_option autoImplicit false

namespace Zkvm.Contract.Instruction

/-- A bit of a nibble, with the number of the nibble set off. -/
def spacedName (name : String) (nibble : Int) (i : Nat) : String :=
  s!"{name}{nibble}_{i}"

def spaced (name : String) (nibble : Int) (i : Nat) : Term :=
  .var (spacedName name nibble i)

def spacedInputs (nibble : Int) : List Clause :=
  (List.range 4).flatMap fun i =>
    [.fix (spacedName "a" nibble i) false, .fix (spacedName "b" nibble i) false]

def gateLogic (gate : Gate) (nibble : Int) : List Clause :=
  (List.range 4).map fun i =>
    .define (spacedName "r" nibble i)
      (.group (.gate gate (spaced "a" nibble i) (spaced "b" nibble i)))

def gateNibble (operation : String) (gate : Gate) (nibble : Int) : Part Place :=
  let word := Text.lower operation
  ofNibble s!"{operation}_NIBBLE_{nibble}" nibble <|
    ofClauses s!"{word}_nibble_{nibble}" [s!"valid_inputs_{nibble}=1"] [s!"{word}_correct_{nibble}"]
      (spacedInputs nibble ++ gateLogic gate nibble)

def bitwiseNibble (nibble : Int) (operation : String) : Except Failure (Part Place) :=
  match operation with
  | "AND" => .ok (gateNibble operation .and nibble)
  | "OR" => .ok (gateNibble operation .or nibble)
  | "XOR" => .ok (gateNibble operation .xor nibble)
  | other => .error (.missingKey other)

def notNibble (nibble : Int) : Part Place :=
  ofNibble s!"NOT_NIBBLE_{nibble}" nibble <|
    ofClauses s!"not_nibble_{nibble}" [s!"valid_input_{nibble}=1"] [s!"not_correct_{nibble}"]
      ((List.range 4).flatMap fun i =>
        [.fix (spacedName "a" nibble i) false,
          .define (spacedName "r" nibble i) (spaced "a" nibble i).flipped])

/-- A bit after the stage that shifts by one: the bit beside it, or the bit itself. -/
def shiftStage (neighbour : Term) (i : Nat) : Clause :=
  .define s!"shift1_{i}" (.group (.var "shift0" &&& neighbour) |||
    .group (.flipped (.var "shift0") &&& .wire "in" i))

/-- A shift upwards, or downwards for any other operation than `SHL`. -/
def shiftMux (operation : String) : Part Place :=
  let up := operation = "SHL"
  let neighbour (i : Nat) : Term :=
    if up then if i = 0 then .bit false else .wire "in" (i - 1)
    else if i = 7 then .bit false else .wire "in" (i + 1)
  single s!"{operation}_MUX" <|
    ofClauses s!"{Text.lower operation}_mux" ["valid_shift_amount=1"]
      [s!"{Text.lower operation}_correct"]
      (((List.range 5).map fun (i : Nat) => .fixWire "shift" i false) ++
        ((List.range 8).map fun (i : Nat) => .fixWire "in" i false) ++
        (List.range 8).map fun i => shiftStage (neighbour i) i)

def bitwise (nibbles : Int) (operation : String) : Plan Place :=
  let word := Text.lower operation
  let gates (name : String) (gate : Gate) :=
    eachNibble nibbles (fun i => s!"{word}_nibble_{i}") (gateNibble name gate)
  match Text.upper operation with
  | "AND" => gates "AND" .and
  | "OR" => gates "OR" .or
  | "XOR" => gates "XOR" .xor
  | "NOT" => eachNibble nibbles (fun i => s!"not_nibble_{i}") notNibble
  | "SHL" => [(s!"{word}_mux", shiftMux "SHL")]
  | "SHR" => [(s!"{word}_mux", shiftMux "SHR")]
  | _ => []

end Zkvm.Contract.Instruction
