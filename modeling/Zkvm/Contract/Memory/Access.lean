import Zkvm.Contract.Memory.Basic
import Zkvm.Text.Case

/-!
# Contracts of loads and stores

Access to memory by an address, and to the memory of the stack by an offset.
-/
set_option autoImplicit false

namespace Zkvm.Contract.Memory

open Term (wire)

def addressNibble (nibble : Int) (operation : String) : Part Place :=
  let bit (i : Nat) : Term := .var s!"a{nibble}{i}"
  addressPart s!"{operation}_ADDR_{nibble}" nibble <|
    ofClauses s!"{Text.lower operation}_addr_{nibble}" [s!"addr_valid_{nibble}=1"]
      [s!"addr_nibble_{nibble}_ok"]
      (rowInputs "a" nibble ++
        ((List.range 4).map fun (i : Nat) =>
          .define s!"v{nibble}{i}" (.group (bit i ||| (bit i).flipped))) ++
        [.wire "addr" nibble (.group (bit 3 &&& bit 2 &&& bit 1 &&& bit 0))])

/-- The address is a multiple of four and in range. -/
def addressCheck (nibbles : Int) (operation : String) : Part Place where
  name := s!"{operation}_ADDR_VALID"
  contract := ofClauses s!"{Text.lower operation}_addr_valid" ["addr_complete=1"]
    ["addr_valid", "addr_aligned"]
    (((Formula.places nibbles).map fun (i : Nat) => .fixWire "addr" i false) ++
      [.define "align" (.group (.var "a00" ^^^ .var "a01")),
        .define "aligned" (.flipped (.var "align")), .fix "valid_range" true])
  role := { isAddress := true }

def loadNibble (nibble : Int) : Part Place :=
  dataPart s!"LOAD_DATA_{nibble}" nibble <|
    ofClauses s!"load_data_{nibble}" ["addr_valid=1", s!"mem_ready_{nibble}=1"]
      [s!"data_{nibble}_loaded"]
      (passOn "m" "d" nibble ++ [.fixWire "read_ok_" nibble true])

def storeNibble (nibble : Int) : Part Place :=
  dataPart s!"STORE_DATA_{nibble}" nibble <|
    ofClauses s!"store_data_{nibble}" ["addr_valid=1", s!"data_ready_{nibble}=1"]
      [s!"data_{nibble}_stored"]
      (passOn "d" "m" nibble ++
        [.fixWire "wen_" nibble true, .wire "write_ok_" nibble (wire "wen_" nibble)])

def consistencyCheck (operation : String) : Part Place :=
  checkPart s!"{operation}_CONSISTENCY" <|
    ofClauses s!"{Text.lower operation}_consistency" ["mem_model_valid=1"] ["memory_consistent"]
      [.fix "is_load" false, .fix "is_store" false,
        .fix (if operation = "LOAD" then "is_load" else "is_store") true,
        .fix "ordered" true, .fix "atomic" true,
        .define "consistent" (.group (.var "ordered" &&& .var "atomic"))]

/-- The parts of a load or, for any other operation, a store. -/
def access (nibbles : Int) (operation : String) : Plan Place :=
  let word := Text.lower operation
  let name := Text.upper operation
  eachNibble nibbles s!"{word}_addr" (fun nibble => addressNibble nibble name) ++
    [(s!"{word}_addr_valid", addressCheck nibbles name)] ++
    (if name = "LOAD" then eachNibble nibbles "load_data" loadNibble
      else eachNibble nibbles "store_data" storeNibble) ++
    [(s!"{word}_consistency", consistencyCheck name)]

def offsetNibble (nibble : Int) (operation : String) : Part Place :=
  let bit (i : Nat) : Term := .var s!"o{nibble}{i}"
  addressPart s!"{operation}_OFFSET_{nibble}" nibble <|
    ofClauses s!"{Text.lower operation}_offset_{nibble}" [s!"sp_valid_{nibble}=1"]
      [s!"offset_{nibble}_ok"]
      (rowInputs "o" nibble ++ [.fixWire "base" nibble false,
        .wire "eff" nibble (.group (wire "base" nibble ^^^ bit 0 ^^^ bit 1 ^^^ bit 2 ^^^ bit 3))])

def boundsCheck (operation : String) : Part Place :=
  checkPart s!"{operation}_BOUNDS" <|
    ofClauses s!"{Text.lower operation}_bounds" ["stack_initialized=1"] ["stack_bounds_ok"]
      [.fix "stack_base" false, .fix "stack_limit" true, .fix "sp_pos" false,
        .fix "above_base" true, .fix "below_limit" true,
        .define "in_bounds" (.group (.var "above_base" &&& .var "below_limit"))]

def stackLoadNibble (nibble : Int) : Part Place :=
  dataPart s!"MLOAD_DATA_{nibble}" nibble <|
    ofClauses s!"mload_data_{nibble}" ["stack_addr_valid=1"] [s!"stack_data_{nibble}_loaded"]
      (passOn "sm" "sd" nibble ++ [.fixWire "sread_" nibble true])

def stackStoreNibble (nibble : Int) : Part Place :=
  dataPart s!"MSTORE_DATA_{nibble}" nibble <|
    ofClauses s!"mstore_data_{nibble}" ["stack_addr_valid=1"] [s!"stack_data_{nibble}_stored"]
      (passOn "sd" "sm" nibble ++ [.fixWire "swen_" nibble true])

/-- The parts of a load from the memory of the stack or, for any other operation, a store to it.
Offsets have four nibbles. -/
def stackAccess (nibbles : Int) (operation : String) : Plan Place :=
  let word := Text.lower operation
  let name := Text.upper operation
  eachNibble 4 s!"{word}_offset" (fun nibble => offsetNibble nibble name) ++
    [(s!"{word}_bounds", boundsCheck name)] ++
    if name = "MLOAD" then eachNibble nibbles "mload_data" stackLoadNibble
    else eachNibble nibbles "mstore_data" stackStoreNibble

end Zkvm.Contract.Memory
