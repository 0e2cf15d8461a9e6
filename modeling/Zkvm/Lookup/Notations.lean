import Zkvm.Json.Fields
import Zkvm.Lookup.Encoding
import Zkvm.Text.Case
import Zkvm.Workspace.Action

/-!
# Other forms of lookup entries

The same entries in other forms: several entries in one statement of which one must hold; entries
whose check is one conjunction with strokes for zeros; entries whose checks are named; a shorter
subtraction; and operations on sixteen bits made of two on eight.
-/
set_option autoImplicit false

namespace Zkvm.Lookup

open Formula
open Term (wire joined sum carry)

structure Entry where
  a : Int
  b : Int
  expected : Int

def Entry.listOfJson (value : Json) : List Entry :=
  value.toItems.map fun item => ⟨item.toInts.getD 0 0, item.toInts.getD 1 0, item.toInts.getD 2 0⟩

/-- Demands every bit of the expected value, a zero with a stroke. -/
def strokeChecks (expected : Int) (name : String) (width : Int) : List Term :=
  (places width).map fun (i : Nat) => if bitOf expected i then wire name i else .neg (wire name i)

def checkClause (expected : Int) (name : String) (width : Int) : Clause :=
  .define "check" (.group (joined .and (checks expected name width)))

namespace AnyOf

/-- One entry in parentheses; its checks stand as clauses of their own. -/
def entryText (computed : List Clause) (name : String) (entry : Entry) : String :=
  let checked := (strokeChecks entry.expected name 8).map Clause.demand
  "(" ++ Formula.text (operands entry.a "b" entry.b ++ computed ++ checked) ++ ")"

def table (title purpose : String) (computed : List Clause) (name : String) (entries : List Entry) :
    String :=
  s!"# 8-bit {title}\n# Validates {purpose}\n" ++
    "# Each test proves a specific lookup entry is correct\n\n" ++
    "solve " ++ " | ".intercalate (entries.map (entryText computed name)) ++ "\n\nquit"

/-- The difference by the complement of `b`, negated by strokes. -/
def difference : List Clause :=
  ((places 8).map fun (i : Nat) => .wire "nb" i (.neg (wire "b" i))) ++ subtractionChain "a" 8

def andTable : String :=
  table "AND Lookup Table" "AND operation for key test cases" (bitwise .and 8) "r"
    [⟨0, 0, 0⟩, ⟨255, 255, 255⟩, ⟨255, 0, 0⟩, ⟨15, 240, 0⟩, ⟨170, 85, 0⟩, ⟨255, 128, 128⟩]

def orTable : String :=
  table "OR Lookup Table" "OR operation for key test cases" (bitwise .or 8) "r"
    [⟨0, 0, 0⟩, ⟨255, 255, 255⟩, ⟨255, 0, 255⟩, ⟨15, 240, 255⟩, ⟨170, 85, 255⟩, ⟨128, 64, 192⟩]

def xorTable : String :=
  table "XOR Lookup Table" "XOR operation for key test cases" (bitwise .xor 8) "r"
    [⟨0, 0, 0⟩, ⟨255, 255, 0⟩, ⟨255, 0, 255⟩, ⟨170, 85, 255⟩, ⟨15, 240, 255⟩, ⟨128, 128, 0⟩]

def addTable : String :=
  table "ADD Lookup Table (modulo 256)" "ADD operation with carry chain"
    (additionChain "a" "b" 8) "s"
    [⟨0, 0, 0⟩, ⟨255, 1, 0⟩, ⟨128, 128, 0⟩, ⟨100, 156, 0⟩, ⟨15, 16, 31⟩, ⟨127, 1, 128⟩]

def subTable : String :=
  table "SUB Lookup Table (modulo 256)" "SUB operation using two's complement" difference "s"
    [⟨255, 1, 254⟩, ⟨0, 1, 255⟩, ⟨128, 128, 0⟩, ⟨100, 50, 50⟩, ⟨50, 100, 206⟩, ⟨200, 56, 144⟩]

def tables : List (String × String) := [
  ("lut8_and.tau", andTable), ("lut8_or.tau", orTable), ("lut8_xor.tau", xorTable),
  ("lut8_add.tau", addTable), ("lut8_sub.tau", subTable)]

end AnyOf

namespace Stroked

def checkText (expected : Int) (name : String) (width : Int) : String :=
  (joined .both (strokeChecks expected name width)).text

def statement (computed : List Clause) (name : String) (entry : Entry) : String :=
  let check := joined .both (strokeChecks entry.expected name 8)
  "solve " ++
    Formula.text (operands entry.a "b" entry.b ++ computed ++ [.define "result" (.group check)]) ++
    "\n\nquit"

def writeAnd : Action String := do
  let entries : List Entry := [⟨0, 0, 0⟩, ⟨255, 255, 255⟩, ⟨15, 240, 0⟩, ⟨170, 85, 0⟩]
  let lines ← entries.zipIdx.mapM fun (entry, i) => do
    let claim := s!"{entry.a} & {entry.b} = {entry.expected}"
    Action.writeFile s!"test_and_{entry.a}_{entry.b}.tau"
      (s!"# AND test: {claim}\n" ++ statement (bitwise .and 8) "r" entry)
    pure s!"# Test {i + 1}: {claim}\n"
  pure ("# 8-bit AND Lookup Validation\n# Tests multiple cases of AND operation\n\n" ++
    "".intercalate lines)

def addText : String :=
  "# 8-bit ADD validation: 15 + 16 = 31\n# Uses carry chain addition\n\n" ++
    statement (additionChain "a" "b" 8) "s" ⟨15, 16, 31⟩

def xorText : String :=
  "# 8-bit XOR validation: 170 ^ 85 = 255\n\n" ++ statement (bitwise .xor 8) "r" ⟨170, 85, 255⟩

def orText : String :=
  "# 8-bit OR validation: 15 | 240 = 255\n\n" ++ statement (bitwise .or 8) "r" ⟨15, 240, 255⟩

def singleTexts : List (String × String) :=
  [("add", addText), ("xor", xorText), ("or", orText)]

def writeAll : Action Unit := do
  let _ ← writeAnd
  singleTexts.forM fun (operation, text) => do
    let name := s!"validate_{operation}.tau"
    Action.writeFile name text
    Action.say s!"Generated {name}"

end Stroked

namespace Named

/-- The name and the text of the file of an entry; `sign` stands between the operands in its
title. -/
def file (operation sign : String) (computed : List Clause) (name : String) (entry : Entry) :
    String × String :=
  let clauses := operands entry.a "b" entry.b ++ computed ++ verify entry.expected name 8
  (s!"lut_{operation}_{entry.a}_{entry.b}.tau",
    s!"# {Text.upper operation} lookup validation: {entry.a} {sign} {entry.b} = " ++
    s!"{entry.expected}\n" ++
      s!"solve {Formula.text clauses}\n\nquit")

/-- The files of an operation given by its name; one without a connective computes nothing. -/
def bitwiseFiles (operation : String) (entries : List Entry) : List (String × String) :=
  let computed := match operation with
    | "and" => bitwise .and 8
    | "or" => bitwise .or 8
    | "xor" => bitwise .xor 8
    | _ => []
  entries.map (file operation operation computed "r")

def addFiles (entries : List Entry) : List (String × String) :=
  entries.map (file "add" "+" (additionChain "a" "b" 8) "s")

def files : List (String × String) :=
  bitwiseFiles "and" [⟨0, 0, 0⟩, ⟨255, 255, 255⟩, ⟨15, 240, 0⟩, ⟨170, 85, 0⟩] ++
    bitwiseFiles "or" [⟨0, 0, 0⟩, ⟨255, 255, 255⟩, ⟨15, 240, 255⟩, ⟨170, 85, 255⟩] ++
    bitwiseFiles "xor" [⟨0, 0, 0⟩, ⟨255, 255, 0⟩, ⟨170, 85, 255⟩, ⟨15, 240, 255⟩] ++
    addFiles [⟨0, 0, 0⟩, ⟨15, 16, 31⟩, ⟨255, 1, 0⟩, ⟨127, 128, 255⟩]

end Named

/-- A subtraction with a shorter rule for its carries, checked in two halves. -/
def compactSubtraction (entry : Entry) : List Clause :=
  let inputs := (places 8).flatMap fun (i : Nat) =>
    [Clause.fixWire "a" i (bitOf entry.a i), .fixWire "b" i (bitOf entry.b i)]
  let first := [
    Clause.wire "s" 0 (.group (wire "a" 0 ^^^ wire "b" 0 ^^^ .bit true)),
    .wire "c" 0
      (.group (.group (wire "a" 0 ||| (wire "b" 0).flipped) &&& .group (wire "b" 0 ||| .bit true)))]
  let later := (laterPlaces 8).flatMap fun (i : Nat) =>
    let before := wire "c" (i - 1)
    [Clause.wire "s" i (sum (wire "a" i) (wire "b" i) before),
      .wire "c" i (.group (.group (wire "a" i ||| wire "b" i) &&& before))]
  let compared := (checks entry.expected "s" 8).zipIdx.map fun (term, i) => Clause.wire "t" i term
  let half (first : Nat) :=
    Term.group (joined .and ((List.range 4).map fun (i : Nat) => wire "t" (first + i)))
  inputs ++ first ++ later ++ compared ++
    [.define "r1" (half 0), .define "r2" (half 4),
      .define "result" (.group (.var "r1" &&& .var "r2"))]

namespace Wide

def highByte (value : Int) : Int := value / 256 % 256

def lowByte (value : Int) : Int := value % 256

def allChecked (name : String) : Term :=
  .group (joined .and ((places 8).map fun (i : Nat) => wire name i))

def byteChecks (checked name : String) (expected : Int) : List Clause :=
  (checks expected name 8).zipIdx.map fun (term, i) => .wire checked i term

def andClauses : List Clause :=
  fixBits 0x0f "ah" 8 ++ fixBits 0x0f "al" 8 ++ fixBits 0xf0 "bh" 8 ++ fixBits 0xf0 "bl" 8 ++
    ((places 8).map fun (i : Nat) => .wire "rh" i (.group (wire "ah" i &&& wire "bh" i))) ++
    ((places 8).map fun (i : Nat) => .wire "rl" i (.group (wire "al" i &&& wire "bl" i))) ++
    byteChecks "th" "rh" 0 ++ byteChecks "tl" "rl" 0 ++
    [.define "high_ok" (allChecked "th"), .define "low_ok" (allChecked "tl"),
      .define "result" (.group (.var "high_ok" &&& .var "low_ok"))]

def andText : String :=
  "# 16-bit AND via 8-bit lookup decomposition\n# Test: 0x0F0F & 0xF0F0 = 0x0000\n\n" ++
    "# Input: a = 0x0F0F (3855), b = 0xF0F0 (61680)\n# Expected: result = 0x0000 (0)\n\n" ++
    s!"solve {Formula.text andClauses}\n\nquit"

def laterSums (half : String) : List Clause :=
  (laterPlaces 8).flatMap fun (i : Nat) =>
    let a := wire s!"a{half}" i
    let b := wire s!"b{half}" i
    let before := wire s!"c{half}" (i - 1)
    [.wire s!"s{half}" i (sum a b before), .wire s!"c{half}" i (carry a b before)]

def addClauses : List Clause :=
  let inputs := (places 8).flatMap fun (i : Nat) =>
    [Clause.fixWire "ah" i (bitOf (highByte 0x00ff) i), .fixWire "al" i (bitOf (lowByte 0x00ff) i),
      .fixWire "bh" i (bitOf (highByte 0x0001) i), .fixWire "bl" i (bitOf (lowByte 0x0001) i)]
  let between : Term := .var "carry_to_high"
  inputs ++
    [.define "sl0" (.group (.var "al0" ^^^ .var "bl0")),
      .define "cl0" (.group (.var "al0" &&& .var "bl0"))] ++
    laterSums "l" ++ [.define "carry_to_high" (.var "cl7")] ++
    [.define "sh0" (sum (.var "ah0") (.var "bh0") between),
      .define "ch0" (carry (.var "ah0") (.var "bh0") between)] ++
    laterSums "h" ++ byteChecks "tl" "sl" (lowByte 0x0100) ++
      byteChecks "th" "sh" (highByte 0x0100) ++
    [.define "low_ok" (allChecked "tl"), .define "high_ok" (allChecked "th"),
      .define "result" (.group (.var "low_ok" &&& .var "high_ok"))]

def addText : String :=
  "# 16-bit ADD via 8-bit lookup decomposition with carry\n# Test: 0x00FF + 0x0001 = 0x0100\n\n" ++
    "# Input: a = 0x00FF (255), b = 0x0001 (1)\n# Expected: result = 0x0100 (256)\n\n" ++
    s!"solve {Formula.text addClauses}\n\nquit"

def explanation : String := Text.lines [
  "# Lookup Decomposition Framework",
  "# General pattern for decomposing n-bit operations into m-bit lookups",
  "",
  "# Key principles:",
  "# 1. Split n-bit values into chunks of m bits",
  "# 2. Perform operation on each chunk independently",
  "# 3. Handle inter-chunk dependencies (like carry propagation)",
  "# 4. Reconstruct final n-bit result",
  "",
  "# For operations without inter-chunk dependencies (AND, OR, XOR):",
  "# - Simply split, apply operation to each chunk, concatenate results",
  "",
  "# For operations with dependencies (ADD, SUB, MUL):",
  "# - Must propagate carries/borrows between chunks",
  "# - May need multiple rounds of lookups",
  "",
  "# Example: 32-bit operation using 8-bit lookups",
  "# Input: a[31:0], b[31:0]",
  "# Split into: a3[7:0], a2[7:0], a1[7:0], a0[7:0]",
  "#            b3[7:0], b2[7:0], b1[7:0], b0[7:0]",
  "# Apply 8-bit operations and handle dependencies",
  ""]

end Wide

end Zkvm.Lookup
