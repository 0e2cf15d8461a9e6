import Zkvm.Composition.Basic
import Zkvm.Formula.Chain
import Zkvm.Workspace.Session

/-!
# Assemblies of contracts

An assembly collects contracts.  The latest contract of a name is the one that composition looks at.
The standard assembly adds two bytes: a contract for each nibble, and one for the carry between
them.
-/
set_option autoImplicit false

namespace Zkvm.Composition

/-- The contracts of an assembly in the order in which they were added. -/
structure Assembly where
  contracts : List Contract := []

namespace Assembly

def defaultDirectory : String := "build/compositional"

def add (assembly : Assembly) (contract : Contract) : Assembly :=
  ⟨assembly.contracts ++ [contract]⟩

def named (assembly : Assembly) (name : String) : Except Failure Contract :=
  match assembly.contracts.reverse.find? fun contract => contract.name = name with
  | some contract => .ok contract
  | none => .error (.missingKey name)

/-- Whether two contracts can be composed; they are looked up in the order given. -/
def compatible (assembly : Assembly) (first second : String) : Except Failure Bool := do
  let one ← assembly.named first
  let other ← assembly.named second
  pure (one.composesWith other)

/-- The pairs of names that can be composed, the earlier one first. -/
def compatiblePairs (assembly : Assembly) : Except Failure (List (String × String)) :=
  (laterPairs (assembly.contracts.map (·.name))).filterM fun (first, second) =>
    assembly.compatible first second

def fileNames (assembly : Assembly) : List String :=
  assembly.contracts.map fun contract => s!"{contract.name}.tau"

def manifest (assembly : Assembly) (pairs : List (String × String)) : Json := .obj [
  ("components", .texts assembly.fileNames),
  ("contracts", .obj (assembly.contracts.foldl
    (fun fields contract => Json.put contract.name (.obj contract.termFields) fields) [])),
  ("composition_verified", .textPairs pairs)]

/-- Writes a file for every contract, and the manifest.  A file is opened before its text is
known. -/
def save (assembly : Assembly) (directory : String) : Action (List (String × String)) := do
  Action.makeDirectories directory
  assembly.contracts.forM fun contract => do
    let path := Path.join directory s!"{contract.name}.tau"
    Action.writeFile path ""
    Action.writeFile path (← Action.ofExcept contract.guardedText)
  let pairs ← Action.ofExcept assembly.compatiblePairs
  Action.writeFile (Path.join directory "manifest.json") (assembly.manifest pairs).pretty
  pure pairs

end Assembly

/-- Adds two nibbles of sample values.  Only the lowest nibble gives its carry away. -/
def nibbleAdder (name : String) (offset : Int) (carryIn : Bool) : Contract :=
  let samples := (List.range 4).flatMap fun (i : Nat) =>
    [Clause.fixWire "a" (offset + i) (Formula.odd (i + 1)),
      .fixWire "b" (offset + i) (Formula.odd i)]
  let chain := Formula.nibbleChain offset (if carryIn then some (.var "carry_in") else none)
  let out : List Clause := if offset = 0 then [.define "carry_out" (.wire "c" (offset + 3))] else []
  let clauses := samples ++ chain ++ out
  { name
    assumptions := if carryIn then ["carry_in=0|carry_in=1"] else []
    guarantees := out.map Clause.text
    names := (if carryIn then ["carry_in"] else []) ++ Formula.definedNames clauses
    constraints := clauses.map Clause.text }

def carryConnection : Contract :=
  { name := "carry_connection"
    assumptions := ["carry_out=0|carry_out=1"]
    guarantees := ["carry_in=carry_out"]
    names := ["carry_out", "carry_in"]
    constraints := ["carry_out=0", "carry_in=carry_out"] }

def byteAdder : List Contract :=
  [nibbleAdder "add_low" 0 false, nibbleAdder "add_high" 4 true, carryConnection]

def demonstrateAssembly : Action Unit := do
  Action.say "Generating compositional 8-bit adder..."
  let assembly : Assembly := ⟨byteAdder⟩
  let pairs ← assembly.save Assembly.defaultDirectory
  Action.say s!"\nGenerated {assembly.contracts.length} components:"
  Action.sayAll (assembly.fileNames.map fun name => s!"  - {name}")
  Action.say s!"\nVerified {pairs.length} compositions:"
  Action.sayAll (pairs.map fun (first, second) => s!"  - {first} ⇓ {second}")
  Action.sayAll ["\nEach component respects the 800-char limit!",
    "Components can be verified independently and composed."]

end Zkvm.Composition
