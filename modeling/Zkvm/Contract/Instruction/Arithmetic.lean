import Zkvm.Contract.Instruction.Basic

/-!
# Contracts of arithmetic instructions

Sums and differences are computed nibble by nibble.  A nibble has its inputs, which have the value
zero on its own, and its logic, a chain of full adders; a link hands the carry or the borrow of a
nibble to the next.
-/
set_option autoImplicit false

namespace Zkvm.Contract.Instruction

open Term (sum carry)

def bitName (name : String) (nibble : Int) (i : Nat) : String :=
  s!"{name}{nibble}{i}"

def bit (name : String) (nibble : Int) (i : Nat) : Term :=
  .var (bitName name nibble i)

def operandInputs (nibble : Int) : List Clause :=
  (List.range 4).flatMap fun i =>
    [.fix (bitName "a" nibble i) false, .fix (bitName "b" nibble i) false]

def carryInput (name : String) (nibble : Int) : List Clause :=
  if 0 < nibble then [.fixWire name nibble false] else []

/-- Place `i` of a nibble: the sum of a bit of `a`, a bit of another row and what is carried into
the place. -/
def fullAdder (other result carries : String) (nibble : Int) (i : Nat) (before : Term) :
    List Clause :=
  [.define (bitName result nibble i) (sum (bit "a" nibble i) (bit other nibble i) before),
    .define (bitName carries nibble i) (carry (bit "a" nibble i) (bit other nibble i) before)]

def upperAdders (other result carries : String) (nibble : Int) : List Clause :=
  (List.range 3).flatMap fun i => fullAdder other result carries nibble (i + 1)
    (bit carries nibble i)

/-- The lowest place of a sum: nothing is carried into nibble zero. -/
def lowestAdder (nibble : Int) : List Clause :=
  if nibble = 0 then
    [.define (bitName "s" nibble 0) (.group (bit "a" nibble 0 ^^^ bit "b" nibble 0)),
      .define (bitName "c" nibble 0) (.group (bit "a" nibble 0 &&& bit "b" nibble 0))]
  else fullAdder "b" "s" "c" nibble 0 (.wire "ci" nibble)

def additionLogic (nibble : Int) : List Clause :=
  lowestAdder nibble ++ upperAdders "b" "s" "c" nibble ++ [.wire "co" nibble (bit "c" nibble 3)]

def addNibble (nibble : Int) : Part Place where
  name := s!"ADD_NIBBLE_{nibble}"
  contract := ofClauses s!"add_nibble_{nibble}" [s!"valid_{nibble}=1"]
    [s!"sum_ok_{nibble}", s!"carry_ok_{nibble}"]
    (operandInputs nibble ++ carryInput "ci" nibble ++ additionLogic nibble)
  role := { nibble, carryIn := decide (0 < nibble), carryOut := true }

def handOver (incoming outgoing : String) (source target : Int) : Clause :=
  .wire incoming target (.wire outgoing source)

def link (title incoming outgoing passed : String) (source target : Int) (operation : String) :
    Part Place where
  name := s!"{Text.upper operation}_{Text.upper title}_{source}_{target}"
  contract := ofClauses s!"{operation}_{title}_{source}_{target}" [s!"nib{source}_ok=1"]
    [s!"{title}_ok_{source}_{target}"]
    [.fixWire outgoing source true, handOver incoming outgoing source target,
      .fix s!"{passed}{source}{target}" true]
  role := { carryIn := true, carryOut := true }

def carryLink : Int → Int → String → Part Place := link "carry" "ci" "co" "cp"

def borrowLink : Int → Int → String → Part Place := link "borrow" "bi" "bo" "bp"

def complement (nibble : Int) : List Clause :=
  (List.range 4).map fun i => .define (bitName "v" nibble i) (bit "b" nibble i).flipped

/-- One is added to the lowest nibble only. -/
def increment (nibble : Int) : Clause :=
  .fix "k" (decide (nibble = 0))

def borrowInput (nibble : Int) : List Clause :=
  if nibble = 0 then [] else [.fixWire "bi" nibble false]

/-- The sum with the complement, and the borrow, which is the flipped carry. -/
def subtractionChain (nibble : Int) : List Clause :=
  fullAdder "v" "d" "w" nibble 0 (if nibble = 0 then .var "k" else .wire "bi" nibble) ++
    upperAdders "v" "d" "w" nibble ++ [.wire "bo" nibble (bit "w" nibble 3).flipped]

def subNibble (nibble : Int) : Part Place :=
  let contract := ofClauses s!"sub_nibble_{nibble}" [s!"valid_{nibble}=1"]
    [s!"diff_ok_{nibble}", s!"borrow_ok_{nibble}"]
    (operandInputs nibble ++ complement nibble ++ [increment nibble] ++ borrowInput nibble ++
      subtractionChain nibble)
  { name := s!"SUB_NIBBLE_{nibble}"
    contract := { contract with names := contract.names.erase "k" }
    role := { nibble, carryIn := decide (0 < nibble), carryOut := true } }

def mulByte : Part Place :=
  let product (i j : Nat) : Term := .var s!"pp{i}_{j}"
  single "MUL_8BIT" <| ofClauses "mul_8bit" ["valid_mul_inputs=1"] ["product_correct"] <|
    ((List.range 8).flatMap fun (i : Nat) => [.fixWire "ma" i false, .fixWire "mb" i false]) ++
    ((List.range 4).flatMap fun (i : Nat) => (List.range 4).map fun (j : Nat) =>
      .define s!"pp{i}_{j}" (.group (.wire "ma" i &&& .wire "mb" j))) ++
    [.wire "p" 0 (product 0 0), .wire "p" 1 (.group (product 0 1 ^^^ product 1 0)),
      .wire "p" 2 (.group (product 0 2 ^^^ product 1 1 ^^^ product 2 0)),
      .wire "p" 3 (.group (product 0 3 ^^^ product 1 2 ^^^ product 2 1 ^^^ product 3 0))]

/-- A quotient, or the remainder for any other operation than a division. -/
def divisionLookup (operation : String) : Part Place :=
  let result := if operation = "DIV" then "quotient" else "remainder"
  let contract :=
    ofClauses s!"{Text.lower operation}_lookup" ["divisor_nonzero=1"] [s!"{result}_correct"] <|
    ((List.range 8).flatMap fun (i : Nat) =>
      [.fixWire "dividend" i false, .fixWire "divisor" i false]) ++
    ((List.range 8).map fun (i : Nat) => .fixWire result i false) ++ [.fix s!"{result}_valid" true]
  single s!"{operation}_LOOKUP" { contract with names := contract.names.erase s!"{result}_valid" }

def arithmetic (nibbles : Int) (operation : String) : Plan Place :=
  match Text.upper operation with
  | "ADD" => eachNibble nibbles (fun i => s!"add_nibble_{i}") addNibble ++
      eachPair nibbles "add_carry" fun source target => carryLink source target "add"
  | "SUB" => eachNibble nibbles (fun i => s!"sub_nibble_{i}") subNibble ++
      eachPair nibbles "sub_borrow" fun source target => borrowLink source target "sub"
  | "MUL" => [("mul_8bit", mulByte)]
  | "DIV" => [(s!"{Text.lower operation}_lookup", divisionLookup "DIV")]
  | "MOD" => [(s!"{Text.lower operation}_lookup", divisionLookup "MOD")]
  | _ => []

end Zkvm.Contract.Instruction
