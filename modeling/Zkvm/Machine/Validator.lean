import Zkvm.Machine.Run
import Zkvm.Workspace.Action

/-!
# Verdicts from constraint files

For each operation there may be a directory of constraint files.  An operation on words is accepted
if the solver solves the files of all nibbles that are there and the file that joins them; any other
operation if it solves the first file of its directory.  A missing or empty directory is no refusal:
it gives a warning and the operation counts as accepted.  The values of an operation are handed down
to each check, cut into nibbles for an operation on words.
-/
set_option autoImplicit false

namespace Zkvm.Machine

inductive NoVerdict where
  | noDirectory (opcode : Opcode)
  | noFiles (opcode : Opcode)

def NoVerdict.message : NoVerdict → String
  | .noDirectory opcode => s!"Constraint files not found for {opcode.name}"
  | .noFiles opcode => s!"No constraint files found for {opcode.name}"

structure ConstraintSource where
  tree : Tree
  directory : Location
  solver : Solver

namespace ConstraintSource

def root : String := "../compiler/build/zkvm_100_percent"

def folder (opcode : Opcode) : String :=
  Path.under root opcode.name

def node? (source : ConstraintSource) (path : String) : Option Node :=
  match source.tree.resolve source.directory path with
  | .ok location => source.tree.lookup location
  | .error _ => none

/-- Whether the solver solves one file, with a warning where it could not be run.  The solver is
given the path and nothing else: neither the values nor the number of the nibble reach it. -/
def checkFile (source : ConstraintSource) (path : String) (_inputs _outputs : List Int := [])
    (_nibble : Option Nat := none) : Bool × List String :=
  let answer := source.solver.answer path
  match answer.trouble? 10 with
  | some trouble => (false, [s!"Warning: Constraint validation failed for {path}: {trouble}"])
  | none => (answer.solved, [])

/-- Checks files, each for a nibble or for all of them, one after another up to the first that is
not solved. -/
def checkFiles (source : ConstraintSource) (inputs outputs : List Int) :
    List (String × Option Nat) → Bool × List String
  | [] => (true, [])
  | (path, nibble) :: rest =>
    match source.checkFile path inputs outputs nibble with
    | (true, warnings) =>
      let (accepted, more) := source.checkFiles inputs outputs rest
      (accepted, warnings ++ more)
    | (false, warnings) => (false, warnings)

/-- The files of an operation on words that are there: one for each nibble, and the one that joins
them. -/
def wordFiles (source : ConstraintSource) (folder : String) (opcode : Opcode) :
    List (String × Option Nat) :=
  let nibbleFiles :=
    (List.range 8).map fun i => (Path.under folder s!"{opcode.name}_nibble_{i}.tau", some i)
  let joiner := (Path.under folder s!"{opcode.name}_aggregator.tau", none)
  (nibbleFiles ++ [joiner]).filter fun (path, _) => (source.node? path).isSome

def folderFiles (source : ConstraintSource) (folder : String) : List String :=
  match source.tree.resolve source.directory folder with
  | .error _ => []
  | .ok location =>
    ((source.tree.children location).filter (Text.hasSuffix ".tau")).map (Path.under folder)

def checkWord (source : ConstraintSource) (folder : String) (opcode : Opcode)
    (inputs outputs : List Int := []) :
    Bool × List String :=
  source.checkFiles (inputs.flatMap nibbles) (outputs.flatMap nibbles)
    (source.wordFiles folder opcode)

def checkFirst (source : ConstraintSource) (folder : String) (opcode : Opcode)
    (inputs outputs : List Int := []) : Except NoVerdict (Bool × List String) :=
  match source.folderFiles folder with
  | [] => .error (.noFiles opcode)
  | first :: _ => .ok (source.checkFile first inputs outputs)

def validate (source : ConstraintSource) (opcode : Opcode) (inputs outputs : List Int := []) :
    Except NoVerdict (Bool × List String) :=
  if (source.node? (folder opcode)).isNone then .error (.noDirectory opcode)
  else if opcode.isWordwise then .ok (source.checkWord (folder opcode) opcode inputs outputs)
  else source.checkFirst (folder opcode) opcode inputs outputs

def judge (source : ConstraintSource) (opcode : Opcode) (inputs outputs : List Int) : Verdict :=
  match source.validate opcode inputs outputs with
  | .ok (accepted, warnings) => ⟨accepted, warnings⟩
  | .error cause => ⟨true, [s!"Warning: Constraint validation error: {cause.message}"]⟩

end ConstraintSource

end Zkvm.Machine
