import Zkvm.Component.Basic

/-!
# Components of operations on bits and of shifts
-/
set_option autoImplicit false

namespace Zkvm.Component

open Term (wire)

def gateNibble (operation : String) (gate : Gate) (nibble : Int) : Component :=
  ofClauses s!"{operation}_nibble_{nibble}" (operandSamples nibble (nibble * 4) ++
    (places nibble).map fun bit => .wire "r" bit
      (.group (.gate gate (wire "a" bit) (wire "b" bit))))

def andNibble : Int → Component := gateNibble "and" .and

def orNibble : Int → Component := gateNibble "or" .or

def xorNibble : Int → Component := gateNibble "xor" .xor

def notNibble (nibble : Int) : Component :=
  ofClauses s!"not_nibble_{nibble}" (samples "a" nibble nibble ++
    (places nibble).map fun bit => .wire "r" bit (wire "a" bit).flipped)

/-- Every bit moves up by one place; the lowest one is the bit that comes in. -/
def shiftUp (nibble : Int) : List Clause :=
  let offset := nibble * 4
  [.wire "r" offset (.var "cin"), .wire "r" (offset + 1) (wire "a" offset),
    .wire "r" (offset + 2) (wire "a" (offset + 1)), .wire "r" (offset + 3) (wire "a" (offset + 2))]

/-- The bit that leaves a nibble upwards; the last nibble calls it an overflow. -/
def shiftedOutAbove (nibble : Int) : Clause :=
  .define (if nibble < 7 then s!"cout{nibble}" else "overflow") (wire "a" (nibble * 4 + 3))

def shlNibble (nibble : Int) : Component :=
  ofClauses s!"shl_nibble_{nibble}"
    (operandSamples nibble (nibble * 4) ++ [.fix "cin" false] ++ shiftUp nibble ++
      [shiftedOutAbove nibble])
    (some (if 0 < nibble then [eitherValue "cin"] else []))
    (some [if nibble < 7 then (shiftedOutAbove nibble).text else "overflow"])

/-- Every bit moves down by one place; the highest one is the bit that comes in. -/
def shiftDown (nibble : Int) : List Clause :=
  let offset := nibble * 4
  [.wire "r" offset (wire "a" (offset + 1)), .wire "r" (offset + 1) (wire "a" (offset + 2)),
    .wire "r" (offset + 2) (wire "a" (offset + 3)), .wire "r" (offset + 3) (.var "cin")]

/-- The bit that leaves a nibble downwards; the first nibble calls it an underflow. -/
def shiftedOutBelow (nibble : Int) : Clause :=
  .define (if 0 < nibble then s!"cout{nibble}" else "underflow") (wire "a" (nibble * 4))

def shrNibble (nibble : Int) : Component :=
  ofClauses s!"shr_nibble_{nibble}"
    (operandSamples nibble (nibble * 4) ++ [.fix "cin" false] ++ shiftDown nibble ++
      [shiftedOutBelow nibble])
    (some (if nibble < 7 then [eitherValue "cin"] else []))
    (some [if 0 < nibble then (shiftedOutBelow nibble).text else "underflow"])

def shlCarryLink (source target : Int) : Component :=
  link s!"shl_carry_{source}_to_{target}" "cin" s!"cout{source}"

/-- The link of a shift downwards reads the bit of the nibble it leads to. -/
def shrCarryLink (source target : Int) : Component :=
  link s!"shr_carry_{source}_to_{target}" "cin" s!"cout{target}"

end Zkvm.Component
