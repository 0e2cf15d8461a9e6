import Zkvm.Failure
import Zkvm.Json.Reader
import Zkvm.Workspace.Solver
import Zkvm.Workspace.Tree

/-!
# Actions in a workspace

A workspace is everything outside a computation that it can see or change: the tree of files, the
directory it works in, the clock, the answers of the solver and the text printed so far.  An action
may fail, and what it did before stays done.
-/
set_option autoImplicit false

namespace Zkvm

structure Workspace where
  tree : Tree
  directory : Location
  clock : Float
  solver : Solver
  printed : String
  /-- How many names can be followed from one into the next. -/
  room : Nat := 996

abbrev Action := ExceptT Failure (StateM Workspace)

namespace Action

/-- Runs an action, with its result or its failure and the workspace that it leaves. -/
def runIn {α : Type} (action : Action α) (workspace : Workspace) : Except Failure α × Workspace :=
  (ExceptT.run action).run workspace

def fail {α : Type} (failure : Failure) : Action α :=
  throw failure

def ofExcept {α : Type} : Except Failure α → Action α
  | .ok value => pure value
  | .error failure => throw failure

def write (text : String) : Action Unit :=
  modify fun w => { w with printed := w.printed ++ text }

def say (line : String) : Action Unit :=
  write (line ++ "\n")

def sayAll (lines : List String) : Action Unit :=
  lines.forM say

def now : Action Float :=
  return (← get).clock

def sleep (seconds : Float) : Action Unit :=
  modify fun w => { w with clock := w.clock + seconds }

def solve (path : String) : Action Answer :=
  return (← get).solver.answer path

/-- Why nothing can be at a path whose last name on the way is this one, if that is so. -/
def refusal? (path name : String) : Option PathTrouble :=
  if Path.hasNull path then some .nullByte
  else if Path.mostNameBytes < name.utf8ByteSize ∨
    Path.mostBytes < path.utf8ByteSize then some .tooLong
  else none

def trouble (path : String) : Detour → PathTrouble
  | .missing name => (refusal? path name).getD .missing
  | .notADirectory => (refusal? path "").getD .notADirectory

def locate (path : String) : Action Location := do
  let w ← get
  if path = "" then fail (.path .missing path)
  match w.tree.resolve w.directory path with
  | .ok location => pure location
  | .error detour => fail (.path (trouble path detour) path)

def allow (path : String) : Action Unit :=
  match refusal? path (Path.name path) with
  | some trouble => fail (.path trouble path)
  | none => pure ()

def look (path : String) : Action (Option Node) := do
  let w ← get
  match w.tree.resolve w.directory path with
  | .ok location => pure (w.tree.lookup location)
  | .error _ => pure none

def exists? (path : String) : Action Bool :=
  return (← look path).isSome

def isDirectory (path : String) : Action Bool := do
  match ← look path with
  | some .directory => pure true
  | _ => pure false

/-- Makes a directory where its parent is; one that is already there is left alone. -/
def makeDirectory (path : String) : Action Unit := do
  let location ← locate path
  let w ← get
  match w.tree.lookup location with
  | some .directory => pure ()
  | some (.file _) => fail (.path .exists path)
  | none =>
    allow path
    set { w with tree := w.tree.set location .directory }

/-- Makes directories one after another; only the last one has to be a directory in the end. -/
def makeEach : List String → Action Unit
  | [] => pure ()
  | [path] => makeDirectory path
  | path :: rest => do
    if !(← exists? path) then makeDirectory path
    makeEach rest

def ancestors (path : String) : List String :=
  let names := Path.parts path
  let root := if Path.isAbsolute path then "/" else ""
  (List.range names.length).map fun i => root ++ "/".intercalate (names.take (i + 1))

def makeDirectories (path : String) : Action Unit := do
  if path = "" then fail (.path .missing path)
  makeEach (ancestors path)

def writeFile (path text : String) : Action Unit := do
  let location ← locate path
  allow path
  let w ← get
  if w.tree.isDirectory location then fail (.path .isADirectory path)
  if !w.tree.isDirectory location.dropLast then fail (.path .notADirectory path)
  set { w with tree := w.tree.set location (.file text) }

def readFile (path : String) : Action String := do
  let location ← locate path
  match (← get).tree.lookup location with
  | some (.file text) => pure (String.ofList (Text.unifyLineEnds text.toList))
  | some .directory => fail (.path .isADirectory path)
  | none => fail (.path (trouble path (.missing (Path.name path))) path)

def readJson (path : String) : Action Json := do
  match Json.parse (← readFile path) with
  | .ok value => pure value
  | .error reason => fail (.malformed reason)

/-- The clean paths of what lies in a directory and has a name with this ending. -/
def listFiles (directory ending : String) : Action (List String) := do
  let w ← get
  match w.tree.resolve w.directory directory with
  | .error _ => pure []
  | .ok location =>
    let names := (w.tree.children location).filter (Text.hasSuffix ending)
    pure (names.map (Path.under directory))

/-- The clean paths of what lies below a directory, at any depth, and has a name with this
ending. -/
def listTree (directory ending : String) : Action (List String) := do
  let w ← get
  match w.tree.resolve w.directory directory with
  | .error _ => pure []
  | .ok location =>
    let found :=
      (w.tree.below location).filter fun (names, _) => Text.hasSuffix ending (names.getLastD "")
    pure (found.map fun (names, _) => Path.under directory ("/".intercalate names))

def here : Action Location :=
  return (← get).directory

def enter (path : String) : Action Unit := do
  let location ← locate path
  let w ← get
  match w.tree.lookup location with
  | some .directory => set { w with directory := location }
  | some (.file _) => fail (.path .notADirectory path)
  | none => fail (.path (trouble path (.missing (Path.name path))) path)

def goTo (location : Location) : Action Unit :=
  modify fun w => { w with directory := location }

/-- Goes on with `handler` if the action fails; what the action did before stays done. -/
def orElse {α : Type} (action : Action α) (handler : Failure → Action α) : Action α :=
  tryCatch action handler

end Action

end Zkvm
