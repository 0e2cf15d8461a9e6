import Zkvm.Component.Report

/-!
# Repairing the files of an operation

A category is an operation whose files are known to be too hard for the solver.  Each of its files
that is there gets the text of a simpler component; no file is made and none is taken away.
-/
set_option autoImplicit false

namespace Zkvm.Repair

/-- What the files of an operation are to hold. -/
structure Category where
  /-- The name of the directory. -/
  name : String
  nibble : Int → Component
  /-- The component for all nibbles together. -/
  whole : List Component := []
  /-- The component for a file that starts with the name of the operation and is about no nibble. -/
  other : Option (String → Component) := none

namespace Category

def directory (category : Category) : String :=
  Path.under Component.buildDirectory category.name

def components (category : Category) : List Component :=
  Component.eachNibble category.nibble ++ category.whole

end Category

def renewFile (directory : String) (component : Component) : Action Unit := do
  Action.writeFile (Path.under directory s!"{component.name}.tau") component.text
  Action.say s!"  ✓ Fixed {component.name}.tau"

def renewFound (directory : String) : List Component → Action Nat
  | [] => pure 0
  | component :: rest => do
    if ← Action.exists? (Path.under directory s!"{component.name}.tau") then
      renewFile directory component
      return (← renewFound directory rest) + 1
    else renewFound directory rest

namespace Category

def otherStems (category : Category) : Action (List String) := do
  let names := (← Action.listFiles category.directory ".tau").map Path.name
  let others := names.filter fun name =>
    Text.hasPrefix s!"{category.name}_" name && !Text.mentions name "nibble"
  pure (others.map Path.stem)

/-- Repairs the files of a category that are there, and counts them. -/
def repair (category : Category) : Action Nat := do
  let title := Text.upper category.name
  Action.say s!"Fixing {title} files..."
  if !(← Action.exists? category.directory) then
    Action.say s!"❌ {title} directory not found"
    return 0
  let known ← renewFound category.directory category.components
  match category.other with
  | none => return known
  | some component =>
    let stems ← category.otherStems
    stems.forM fun stem => renewFile category.directory (component stem)
    return known + stems.length

end Category

section Categories

open Component (guaranteeing completion)
open Term (wire)
open Formula (odd)

def dup : Category where
  name := "dup"
  nibble i :=
    guaranteeing s!"dup_nibble_{i}" [.fixWire "top" i true, .wire "dup" i (wire "top" i)]
      [s!"dup{i}"]
  whole := [completion "dup_aggregator" "allok" "dupcomplete"]

def swap : Category where
  name := "swap"
  nibble i := guaranteeing s!"swap_nibble_{i}"
    [.fixWire "a" i true, .fixWire "b" i false, .wire "swapa" i (wire "b" i),
      .wire "swapb" i (wire "a" i)]
    [s!"swapa{i}", s!"swapb{i}"]
  whole := [completion "swap_aggregator" "allswapped" "swapcomplete"]

def mul : Category where
  name := "mul"
  nibble i := guaranteeing s!"mul_partial_{i}"
    [.fixWire "a" i true, .fixWire "b" i true, .wire "prod" i (.group (wire "a" i &&& wire "b" i))]
      [s!"prod{i}"]

def mload : Category where
  name := "mload"
  nibble i := guaranteeing s!"mload_nibble_{i}"
    [.fixWire "maddr" i (odd i), .fix "memspace" true, .wire "mdata" i (wire "maddr" i)]
      [s!"mdata{i}"]

def mstore : Category where
  name := "mstore"
  nibble i := guaranteeing s!"mstore_nibble_{i}"
    [.fixWire "maddr" i (odd i), .fixWire "mdata" i (odd (i + 1)), .fixWire "memwrite" i true,
      .wire "stored" i (.group (wire "mdata" i &&& wire "memwrite" i))] [s!"stored{i}"]

def push : Category where
  name := "push"
  nibble i := guaranteeing s!"push_nibble_{i}"
    [.fixWire "data" i (odd (i + 1)), .fix "stackop" true,
      .wire "pushed" i (.group (wire "data" i &&& .var "stackop"))] [s!"pushed{i}"]
  other :=
    some fun stem => guaranteeing stem [.fix "carry" false, .define "pushcarry" (.var "carry")]
      ["pushcarry"]

def pop : Category where
  name := "pop"
  nibble i := guaranteeing s!"pop_nibble_{i}"
    [.fix "stackop" true, .fixWire "stackdata" i (odd i),
      .wire "popped" i (.group (wire "stackdata" i &&& .var "stackop"))] [s!"popped{i}"]
  other :=
    some fun stem => guaranteeing stem [.fix "borrow" false, .define "popborrow" (.var "borrow")]
      ["popborrow"]

def verify : Category where
  name := "verify"
  nibble i := guaranteeing s!"verify_nibble_{i}"
    [.fixWire "sig" i true, .fixWire "msg" i (odd i), .fixWire "pk" i true,
      .wire "verifyok" i (.group (wire "sig" i &&& wire "msg" i &&& wire "pk" i))] [s!"verifyok{i}"]
  whole := [completion "verify_aggregator" "allverified" "verifycomplete"]

def firstRound : List Category := [dup, swap, mul]

def lastRound : List Category := [mload, mstore, push, pop, verify]

def category? (name : String) : Option Category :=
  (firstRound ++ lastRound).find? fun category => category.name = name

def singles : List Component :=
  [guaranteeing "halt" [.fix "halt" true, .define "halted" (.var "halt")] ["halted"],
    guaranteeing "nop" [.fix "nop" true, .define "noop" (.var "nop")] ["noop"]]

end Categories

def singleDirectory (component : Component) : String :=
  Path.under Component.buildDirectory component.name

def repairSingles : Action Nat := do
  Action.say "Fixing simple operations..."
  let counts ← singles.mapM fun component => renewFound (singleDirectory component) [component]
  pure (counts.foldr (· + ·) 0)

end Zkvm.Repair
