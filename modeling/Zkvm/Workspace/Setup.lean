import Zkvm.Workspace.Action

/-!
# Setting up a workspace and seeing what changed

Files are placed by their paths, with the directories on the way to them.  Entries of a tree keep
their places, so that two states of one tree are compared entry by entry.
-/
set_option autoImplicit false

namespace Zkvm

namespace Path

/-- The location that a path names from a directory on, whether or not anything is there. -/
def locate (directory : Location) (path : String) : Location :=
  (parts path).foldl (fun here name => if name = ".." then here.dropLast else here ++ [name])
    (if isAbsolute path then [] else directory)

def wayTo : Location → Location → List String
  | [], location => location
  | directory, [] => List.replicate directory.length ".."
  | here :: directory, name :: location =>
    if here = name then wayTo directory location
    else List.replicate (directory.length + 1) ".." ++ name :: location

end Path

namespace Tree

/-- Places a file; a path that ends with a slash is that of a directory. -/
def place (directory : Location) (tree : Tree) (path text : String) : Tree :=
  let location := Path.locate directory path
  if Text.hasSuffix "/" path then tree.makeAll [] location
  else (tree.makeAll [] location.dropLast).set location (.file text)

def changedIn : List (Location × Node) → List (Location × Node) → List (Location × String)
  | _, [] => []
  | before, (_, .directory) :: after => changedIn (before.drop 1) after
  | (_, .file old) :: before, (location, .file text) :: after =>
    if old = text then changedIn before after else (location, text) :: changedIn before after
  | before, (location, .file text) :: after => (location, text) :: changedIn (before.drop 1) after

/-- The files of a later state of a tree that are new or have another text. -/
def changes (before after : Tree) : List (Location × String) :=
  changedIn before.entries after.entries

end Tree

/-- An answer of the solver as structured data: a reason to fail, a time limit, or a code and two
outputs. -/
def Answer.ofJson (record : Json) : Answer :=
  match record.get? "fail" with
  | some reason => .failed reason.toText
  | none =>
    if (record.field "timeout").toBool then .timedOut "['tau']"
    else .ran (((record.get? "rc").map Json.toInt).getD 1) (record.field "out").toText
      (record.field "err").toText

namespace Workspace

def start (directory : Location) (files : List (String × String)) (solver : Solver)
    (clock : Float) : Workspace where
  tree :=
    files.foldl (fun tree (path, text) => tree.place directory path text)
      (Tree.makeAll {} [] directory)
  directory
  clock
  solver
  printed := ""

def printedSince (before after : Workspace) : String :=
  String.ofList (after.printed.toList.drop before.printed.length)

end Workspace

end Zkvm
