import Zkvm.Contract.Basic

/-!
# Parts of instructions

The role of a part of an instruction: the nibble that it is about, if it is about one, and whether a
carry comes in or goes out.
-/
set_option autoImplicit false

namespace Zkvm.Contract.Instruction

structure Place where
  /-- The nibble, or `-1` for a part that is about no single nibble. -/
  nibble : Int := -1
  carryIn : Bool := false
  carryOut : Bool := false

instance : Role Place where
  remark place :=
    s!"# Nibble: {place.nibble}, Carry In: {truthWord place.carryIn}, " ++
      s!"Carry Out: {truthWord place.carryOut}\n"

def single (name : String) (contract : Contract) : Part Place :=
  ⟨name, contract, {}⟩

def ofNibble (name : String) (nibble : Int) (contract : Contract) : Part Place :=
  ⟨name, contract, { nibble }⟩

def eachNibble (count : Int) (stem : Nat → String) (part : Int → Part Place) : Plan Place :=
  (Formula.places count).map fun (i : Nat) => (stem i, part i)

def eachPair (count : Int) (stem : String) (part : Int → Int → Part Place) : Plan Place :=
  (Formula.places (count - 1)).map fun (i : Nat) => (s!"{stem}_{i}_{i + 1}", part i (i + 1))

end Zkvm.Contract.Instruction
