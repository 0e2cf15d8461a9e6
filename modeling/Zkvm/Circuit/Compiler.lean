import Zkvm.Circuit.Grouping
import Zkvm.Circuit.Lowering
import Zkvm.Workspace.Session

/-!
# Compiling circuit modules to files

Modules are registered by name and compiled in an order in which every module follows those it
depends on, if there is one.  A list of all files is written at the end.
-/
set_option autoImplicit false

namespace Zkvm.Circuit

structure Compiler where
  directory : String
  /-- The registered modules; a later one of the same name takes the place of the earlier. -/
  modules : List (String × Module) := []
  /-- The paths of all files written so far. -/
  generated : List String := []
  limits : Limits := {}

namespace Compiler

def openAt (directory : String) : Action Compiler := do
  Action.makeDirectories directory
  pure { directory }

def register (compiler : Compiler) (m : Module) : Compiler :=
  { compiler with modules := Json.put m.name m compiler.modules }

/-- The names that a name depends on; one that is no module's depends on nothing. -/
def dependencies (compiler : Compiler) (name : String) : List String :=
  match compiler.modules.lookup name with
  | some m => m.dependencies.getD []
  | none => []

/-- The names that were reached, and those among them that are done, in order. -/
structure Visit where
  reached : List String := []
  order : List String := []

/-- Visits a name after everything it depends on, unless there is no room to follow it. -/
def visit (compiler : Compiler) : Nat → Visit → String → Except Failure Visit
  | 0, before, name => if before.reached.contains name then .ok before else .error .tooDeep
  | room + 1, before, name =>
    if before.reached.contains name then .ok before
    else do
      let entered : Visit := { before with reached := name :: before.reached }
      let after ← (compiler.dependencies name).foldlM (compiler.visit room) entered
      pure { after with order := after.order ++ [name] }

/-- All names, each after those it depends on where there is no cycle. -/
def order (compiler : Compiler) (room : Nat) : Except Failure (List String) :=
  ((compiler.modules.map (·.1)).foldlM (compiler.visit room) {}).map Visit.order

def ordered : Session Compiler (List String) := do
  let compiler ← Session.own
  Session.act (do Action.ofExcept (compiler.order (← get).room))

end Compiler

def inputLines (vars : List Variable) : List String :=
  (vars.filter (·.isInput)).flatMap fun v =>
    (Formula.places v.width).map fun (i : Nat) =>
      (Clause.fixWire v.name i (Formula.odd i)).text

def fileText (m : Module) (lines : List String) (index : Int) : String :=
  let statement := Formula.joinTexts (inputLines m.vars ++ lines ++ ["result=1"])
  s!"# Module: {m.name} (Part {index + 1})\n# Auto-generated by TauCompiler\n\n" ++
    s!"solve {statement}\n\nquit"

def writeParts (m : Module) (index : Nat) : List (List String) → Session Compiler (List String)
  | [] => pure []
  | lines :: rest => do
    let compiler ← Session.own
    let name := s!"{m.name}_part{index}.tau"
    let path := Path.join compiler.directory name
    Session.act (Action.writeFile path (fileText m lines index))
    Session.update fun compiler => { compiler with generated := compiler.generated ++ [path] }
    return name :: (← writeParts m (index + 1) rest)

/-- Compiles one module; nothing is written if one of its constraints cannot be lowered. -/
def compile (m : Module) : Session Compiler (List String) := do
  let lines ← Session.act (Action.ofExcept (lowerAll m.constraints))
  let groups := split (← Session.own).limits (lines.map Line.text)
  writeParts m 0 groups

/-- Compiles modules by name; one that is not registered is a failure. -/
def compileEach : List String → Session Compiler (List (String × List String))
  | [] => pure []
  | name :: rest => do
    match (← Session.own).modules.lookup name with
    | none => throw (.missingKey name)
    | some m =>
      let files ← compile m
      return (name, files) :: (← compileEach rest)

/-- The list of all files; each module stands with what is said about it. -/
def manifest (compiler : Compiler) (results : Json) : Json := .obj [
  ("modules", results),
  ("total_files", .int compiler.generated.length),
  ("output_dir", .str compiler.directory),
  ("compiler_version", .str "1.0.0")]

def resultsJson (results : List (String × List String)) : Json :=
  .obj (results.map fun (name, files) => (name, .texts files))

def saveManifest (compiler : Compiler) (results : Json) : Action Unit :=
  Action.writeFile (Path.join compiler.directory "manifest.json") (manifest compiler results).pretty

def compileAll : Session Compiler (List (String × List String)) := do
  let results ← compileEach (← Compiler.ordered)
  Session.act (saveManifest (← Session.own) (resultsJson results))
  pure results

def exampleModule : Module :=
  let a : Variable := { name := "a", width := 8, isInput := true }
  let b : Variable := { name := "b", width := 8, isInput := true }
  let c : Variable := { name := "c", width := 8, isOutput := true }
  { name := "arithmetic_ops"
    vars := [a, b, c]
    constraints :=
      [{ kind := .arithmetic, vars := [a, b, c], expression := "c = (a + b) mod 256" }] }

end Zkvm.Circuit
