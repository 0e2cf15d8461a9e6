import Zkvm.Workspace.Path

/-!
# The tree of files

Directories and files with their texts, in the order in which they were made.  Writing to a file
that is there changes its text and nothing else in the tree.
-/
set_option autoImplicit false

namespace Zkvm

inductive Node where
  | directory
  | file (text : String)

structure Tree where
  entries : List (Location × Node) := []

namespace Tree

def lookupIn (location : Location) : List (Location × Node) → Option Node
  | [] => none
  | (here, node) :: rest => if here = location then some node else lookupIn location rest

/-- What is at a location; the root is always a directory. -/
def lookup (tree : Tree) (location : Location) : Option Node :=
  if location = [] then some .directory else lookupIn location tree.entries

def setIn (location : Location) (node : Node) : List (Location × Node) → List (Location × Node)
  | [] => [(location, node)]
  | (here, old) :: rest =>
    if here = location then (here, node) :: rest else (here, old) :: setIn location node rest

def set (tree : Tree) (location : Location) (node : Node) : Tree :=
  ⟨setIn location node tree.entries⟩

def isDirectory (tree : Tree) (location : Location) : Bool :=
  match tree.lookup location with
  | some .directory => true
  | _ => false

def childName? (directory location : Location) : Option String :=
  match location.getLast? with
  | some name => if location = directory ++ [name] then some name else none
  | none => none

def children (tree : Tree) (directory : Location) : List String :=
  tree.entries.filterMap fun (location, _) => childName? directory location

/-- All entries below a directory, as names from there on. -/
def below (tree : Tree) (directory : Location) : List (Location × Node) :=
  tree.entries.filterMap fun (location, node) =>
    if directory.isPrefixOf location ∧ location ≠ directory then
      some (location.drop directory.length, node)
    else none

def makeAll (tree : Tree) (directory : Location) : Location → Tree
  | [] => tree
  | name :: rest =>
    let here := directory ++ [name]
    let grown := if (tree.lookup here).isSome then tree else tree.set here .directory
    grown.makeAll here rest

end Tree

/-- Why a path could not be followed. -/
inductive Detour where
  /-- There is nothing of this name. -/
  | missing (name : String)
  | notADirectory

namespace Tree

/-- Follows names from a directory on; every name but the last must be a directory's. -/
def follow (tree : Tree) : Location → List String → Except Detour Location
  | here, [] => .ok here
  | here, name :: rest =>
    let next := if name = ".." then here.dropLast else here ++ [name]
    if rest.isEmpty then .ok next
    else
      match tree.lookup next with
      | some .directory => tree.follow next rest
      | some (.file _) => .error .notADirectory
      | none => .error (.missing name)

/-- The location of a path as seen from a directory. -/
def resolve (tree : Tree) (directory : Location) (path : String) : Except Detour Location :=
  tree.follow (if Path.isAbsolute path then [] else directory) (Path.parts path)

end Tree

end Zkvm
