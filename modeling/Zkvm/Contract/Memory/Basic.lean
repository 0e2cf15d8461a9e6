import Zkvm.Contract.Basic

/-!
# Parts of operations on memory

The role of a part: the nibble that it is about, if it is about one, and whether it is about an
address or about data.
-/
set_option autoImplicit false

namespace Zkvm.Contract.Memory

open Term (wire)

structure Place where
  /-- The nibble, or `-1` for a part that is about no single nibble. -/
  nibble : Int := -1
  isAddress : Bool := false
  isData : Bool := false

instance : Role Place where
  remark place :=
    s!"# Nibble: {place.nibble}, Address: {truthWord place.isAddress}, " ++
      s!"Data: {truthWord place.isData}\n"

def addressPart (name : String) (nibble : Int) (contract : Contract) : Part Place :=
  ⟨name, contract, { nibble, isAddress := true }⟩

def dataPart (name : String) (nibble : Int) (contract : Contract) : Part Place :=
  ⟨name, contract, { nibble, isData := true }⟩

def checkPart (name : String) (contract : Contract) : Part Place :=
  ⟨name, contract, {}⟩

def eachNibble (count : Int) (stem : String) (part : Int → Part Place) : Plan Place :=
  (Formula.places count).map fun (i : Nat) => (s!"{stem}_{i}", part i)

def rowInputs (row : String) (nibble : Int) : List Clause :=
  (List.range 4).map fun (i : Nat) => .fix s!"{row}{nibble}{i}" false

def rowCopy (row source : String) (nibble : Int) : List Clause :=
  (List.range 4).map fun (i : Nat) => .define s!"{row}{nibble}{i}" (.var s!"{source}{nibble}{i}")

def passOn (source row : String) (nibble : Int) : List Clause :=
  rowInputs source nibble ++ rowCopy row source nibble

end Zkvm.Contract.Memory
