/-!
# Packing lines into files

A file should stay below a length and a number of names.  Lines are taken in order; a new file is
begun when the next line would go beyond either limit, so that a file can only be too large if it is
a single line.
-/
set_option autoImplicit false

namespace Zkvm.Circuit

def isLetter (c : Char) : Bool :=
  (97 ≤ c.toNat && c.toNat ≤ 122) || (65 ≤ c.toNat && c.toNat ≤ 90)

def isDigit (c : Char) : Bool :=
  48 ≤ c.toNat && c.toNat ≤ 57

/-- The names in a text with the name that is being read, if there is one, its letters in
reverse. -/
def scanNames : List Char → List Char → List String
  | [], [] => []
  | current, [] => [String.ofList current.reverse]
  | [], c :: rest => if isLetter c then scanNames [c] rest else scanNames [] rest
  | current, c :: rest =>
    if isLetter c || isDigit c then scanNames (c :: current) rest
    else String.ofList current.reverse :: scanNames [] rest

def newOnes (seen : List String) : List String → List String
  | [] => []
  | name :: rest =>
    if seen.contains name then newOnes seen rest else name :: newOnes (name :: seen) rest

/-- The names in a text: letters of ASCII followed by letters and digits, each name once. -/
def namesIn (text : String) : List String :=
  newOnes [] (scanNames [] text.toList)

def union (first second : List String) : List String :=
  first ++ newOnes first second

structure Limits where
  maxLength : Int := 700
  maxNames : Int := 50

structure Group where
  lines : List String
  length : Nat
  names : List String

namespace Group

def single (line : String) : Group :=
  ⟨[line], line.length, namesIn line⟩

/-- The group with one more line, whose length counts with the four characters that join it. -/
def push (group : Group) (line : String) : Group :=
  ⟨group.lines ++ [line], group.length + line.length + 4, union group.names (namesIn line)⟩

def fits (limits : Limits) (group : Group) : Bool :=
  (group.length : Int) ≤ limits.maxLength && (group.names.length : Int) ≤ limits.maxNames

end Group

def pack (limits : Limits) : Group → List String → List (List String)
  | current, [] => [current.lines]
  | current, line :: rest =>
    let grown := current.push line
    if grown.fits limits then pack limits grown rest
    else current.lines :: pack limits (Group.single line) rest

/-- Lines in groups that keep their order.  The length of the very first line counts with four
characters for a join, as if a line stood before it. -/
def split (limits : Limits) : List String → List (List String)
  | [] => []
  | line :: rest => pack limits ⟨[line], line.length + 4, namesIn line⟩ rest

end Zkvm.Circuit
