import Zkvm.Circuit.Blueprint
import Zkvm.Component.Report
import Zkvm.Composition.Assembly
import Zkvm.Composition.Halves
import Zkvm.Composition.Words
import Zkvm.Contract.Instruction.Generator
import Zkvm.Lookup.Notations
import Zkvm.Lookup.Table
import Zkvm.Machine.Record
import Zkvm.Showcase.Folding
import Zkvm.Showcase.Instructions
import Zkvm.Showcase.Patterns
import Zkvm.Showcase.Proving

/-!
# Command line

Each command performs one action in an empty workspace.  What the action says is printed, and the
files that it made are written below the current directory.
-/
set_option autoImplicit false

namespace Zkvm.CommandLine

/-- Runs a program on a new machine and says its output and the final state. -/
def execute (program : Machine.Source) : Action Unit :=
  match Machine.load? {} program with
  | .error unknown => Action.say unknown.message
  | .ok machine => do
    let (after, stop) := machine.run ⟨fun _ => 0, fun _ => 0, fun _ => 0⟩ none 10000
    Action.sayAll after.said.toList
    Action.say (Json.obj ((after.report stop).fields false)).compact

def commands : List (String × Action Unit) := [
  ("sum", execute Machine.sumProgram),
  ("fibonacci", execute Machine.fibonacciProgram),
  ("blueprint", Circuit.Blueprint.buildAndList),
  ("components", Component.generateAndValidate),
  ("assembly", Composition.demonstrateAssembly),
  ("halves", Composition.Halves.demonstrate),
  ("words", Composition.WordCompiler.demonstrate),
  ("instructions", Contract.Instruction.demonstrate {}),
  ("lookups", do discard (Lookup.saveAll (← Lookup.Settings.openAt "."))),
  ("folding", Showcase.Folding.collection.save "."),
  ("architecture", Showcase.Instructions.collection.save "."),
  ("proving", Showcase.Proving.collection.save "."),
  ("patterns", discard (Showcase.Patterns.explain Showcase.Patterns.logic))]

def emptyWorkspace : Workspace where
  tree := {}
  directory := []
  clock := 0.0
  solver := []
  printed := ""

def usage : String :=
  "commands: " ++ ", ".intercalate (commands.map (·.1))

def store (tree : Tree) : IO Unit :=
  tree.entries.forM fun (location, node) => do
    let path := "/".intercalate location
    match node with
    | .directory => IO.FS.createDirAll path
    | .file text => IO.FS.writeFile path text

end Zkvm.CommandLine

def main (args : List String) : IO UInt32 := do
  match args.head?.bind fun name => Zkvm.CommandLine.commands.lookup name with
  | none =>
    IO.eprintln Zkvm.CommandLine.usage
    return 2
  | some action =>
    let (outcome, after) := action.runIn Zkvm.CommandLine.emptyWorkspace
    IO.print after.printed
    Zkvm.CommandLine.store after.tree
    match outcome with
    | .ok _ => return 0
    | .error failure =>
      IO.eprintln failure.message
      return 1
