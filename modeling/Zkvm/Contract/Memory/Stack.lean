import Zkvm.Contract.Memory.Basic
import Zkvm.Text.Case

/-!
# Contracts of operations on the stack
-/
set_option autoImplicit false

namespace Zkvm.Contract.Memory

/-- The stack pointer moves by the four bytes of a word: bit two of the lowest nibble is flipped. -/
def pointerNibble (nibble : Int) (operation : String) : Part Place :=
  let step := if operation = "PUSH" then "dec" else "inc"
  let old (i : Nat) : Term := .var s!"sp{nibble}{i}"
  addressPart s!"{operation}_SP_{nibble}" nibble <|
    ofClauses s!"{Text.lower operation}_sp_{nibble}" [s!"sp_valid_{nibble}=1"]
      [s!"sp_updated_{nibble}"]
      (rowInputs "sp" nibble ++ [.fix step (decide (nibble = 0))] ++
        (List.range 4).map fun (i : Nat) =>
          .define s!"nsp{nibble}{i}" (if nibble = 0 ∧ i = 2 then (old i).flipped else old i))

/-- There is room to push or, for any other operation, something to pop. -/
def roomCheck (operation : String) : Part Place :=
  let (found, safe) :=
    if operation = "PUSH" then ("has_space", "no_overflow") else ("has_data", "no_underflow")
  checkPart s!"{operation}_CHECK" <|
    ofClauses s!"{Text.lower operation}_check" ["stack_valid=1"] [s!"{Text.lower operation}_safe"]
      [.fix "stack_top" false, .fix "stack_bottom" true, .fix "sp_current" false, .fix found true,
        .define safe (.var found)]

def pushNibble (nibble : Int) : Part Place :=
  dataPart s!"PUSH_DATA_{nibble}" nibble <|
    ofClauses s!"push_data_{nibble}" ["sp_updated=1"] [s!"data_{nibble}_pushed"]
      (passOn "pd" "st" nibble ++ [.fixWire "pushed_" nibble true])

def popNibble (nibble : Int) : Part Place :=
  dataPart s!"POP_DATA_{nibble}" nibble <|
    ofClauses s!"pop_data_{nibble}" ["stack_has_data=1"] [s!"data_{nibble}_popped"]
      (passOn "st" "pd" nibble ++ [.fixWire "popped_" nibble true])

/-- The parts of a push or, for any other operation, a pop. -/
def pushOrPop (nibbles : Int) (operation : String) : Plan Place :=
  let word := Text.lower operation
  let name := Text.upper operation
  eachNibble nibbles s!"{word}_sp" (fun nibble => pointerNibble nibble name) ++
    [(s!"{word}_check", roomCheck name)] ++
    if name = "PUSH" then eachNibble nibbles "push_data" pushNibble
    else eachNibble nibbles "pop_data" popNibble

def dupNibble (nibble : Int) : Part Place :=
  dataPart s!"DUP_NIBBLE_{nibble}" nibble <|
    ofClauses s!"dup_nibble_{nibble}" [s!"stack_item_valid_{nibble}=1"]
      [s!"item_{nibble}_duplicated"]
      (passOn "src" "dup" nibble ++ rowCopy "orig" "src" nibble)

def dupPointer : Part Place where
  name := "DUP_SP_UPDATE"
  contract := ofClauses "dup_sp_update" ["dup_requested=1"] ["sp_updated_for_dup"]
    [.fix "sp_old" false, .define "sp_new" (.flipped (.var "sp_old")), .fix "has_space" true]
  role := { isAddress := true }

def swapFirst (nibble : Int) : Part Place :=
  dataPart s!"SWAP_A_{nibble}" nibble <|
    ofClauses s!"swap_a_{nibble}" [s!"item_a_valid_{nibble}=1"] [s!"a_{nibble}_saved"]
      (passOn "a" "tmp" nibble)

def swapSecond (nibble : Int) : Part Place :=
  dataPart s!"SWAP_B_{nibble}" nibble <|
    ofClauses s!"swap_b_{nibble}" [s!"item_b_valid_{nibble}=1", s!"temp_valid_{nibble}=1"]
      [s!"items_{nibble}_swapped"] (passOn "b" "newa" nibble ++ rowInputs "newb" nibble)

def swapCheck (nibbles : Int) : Part Place :=
  let names := (Formula.places nibbles).map fun (i : Nat) => s!"swapped_{i}"
  checkPart "SWAP_COORD" <|
    ofClauses "swap_coord" ["swap_initiated=1"] ["swap_atomic", "swap_complete"]
      (Formula.fixAll false names ++
        [.define "atomic_swap" (.group (.joined .wideAnd (names.map .var))),
          .define "complete" (.var "atomic_swap")])

/-- The parts of a duplication or, for any other operation, a swap. -/
def dupOrSwap (nibbles : Int) (operation : String) : Plan Place :=
  if Text.upper operation = "DUP" then
    eachNibble nibbles "dup_nibble" dupNibble ++ [("dup_sp_update", dupPointer)]
  else
    ((Formula.places nibbles).flatMap fun (i : Nat) =>
      [(s!"swap_a_{i}", swapFirst i), (s!"swap_b_{i}", swapSecond i)]) ++
        [("swap_coord", swapCheck nibbles)]

end Zkvm.Contract.Memory
