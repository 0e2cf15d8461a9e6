import Zkvm.Text.Search

/-!
# Paths

A path is a text with slashes.  `clean` gives the one form of a path without empty and `.` parts; a
file or directory of the tree is known by its `Location`, the names on the way to it from the root.
-/
set_option autoImplicit false

namespace Zkvm

/-- The names on the way from the root to a file or a directory. -/
abbrev Location := List String

namespace Path

def isAbsolute (path : String) : Bool :=
  Text.hasPrefix "/" path

/-- The names in a path that are not empty and not `.`. -/
def parts (path : String) : List String :=
  (Text.split '/' path).filter fun part => part ≠ "" && part ≠ "."

def clean (path : String) : String :=
  let names := "/".intercalate (parts path)
  if isAbsolute path then "/" ++ names else if names = "" then "." else names

def under (directory name : String) : String :=
  if isAbsolute name then clean name else clean (directory ++ "/" ++ name)

def join (directory name : String) : String :=
  if isAbsolute name then name
  else if directory = "" ∨ Text.hasSuffix "/" directory then directory ++ name
  else directory ++ "/" ++ name

def lastPart (path : String) : String :=
  (Text.split '/' path).getLastD path

def name (path : String) : String :=
  (parts path).getLastD ""

/-- The last name without the ending that follows its last point, unless that point is its first
character. -/
def stem (path : String) : String :=
  let letters := (name path).toList
  let back := letters.reverse
  let ending := back.takeWhile (· ≠ '.')
  let front := back.drop (ending.length + 1)
  if ending.length < back.length ∧ ending ≠ [] ∧ front ≠ [] then String.ofList front.reverse
  else name path

/-- The path has the character zero in it, which no path can have. -/
def hasNull (path : String) : Bool :=
  path.toList.contains '\x00'

def mostNameBytes : Nat := 255

def mostBytes : Nat := 4095

def parent (path : String) : String :=
  let names := (parts path).dropLast
  if isAbsolute path then "/" ++ "/".intercalate names
  else if names = [] then "." else "/".intercalate names

end Path

end Zkvm
