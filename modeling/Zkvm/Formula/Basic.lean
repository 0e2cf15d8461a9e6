/-!
# Formulas of the solver

A term is built from names and constants with the connectives of the solver, which writes `+` for
exclusive or, `&` for and, `|` for or and a stroke after what it negates.  A clause either defines a
name by a term or demands a term; a statement is a list of clauses joined by ` && `.  Parentheses
are part of a term, so that its text is exactly what its author wrote.  Beside the text stands the
meaning: the value of a term and the truth of a clause under an assignment of truth values to names.
-/
set_option autoImplicit false

namespace Zkvm

/-- The connectives.  Each also has a wide spelling with blanks, and `both` is a conjunction in the
spelling that joins clauses. -/
inductive Gate where
  | xor
  | and
  | or
  | wideXor
  | wideAnd
  | wideOr
  | both

namespace Gate

def symbol : Gate → String
  | .xor => "+"
  | .and => "&"
  | .or => "|"
  | .wideXor => " + "
  | .wideAnd => " & "
  | .wideOr => " | "
  | .both => " && "

def apply : Gate → Bool → Bool → Bool
  | .xor, x, y => x ^^ y
  | .and, x, y => x && y
  | .or, x, y => x || y
  | .wideXor, x, y => x ^^ y
  | .wideAnd, x, y => x && y
  | .wideOr, x, y => x || y
  | .both, x, y => x && y

end Gate

inductive Term where
  | var (name : String)
  | bit (value : Bool)
  /-- The conjunction of no terms: it is true and has no text. -/
  | nothing
  | neg (inner : Term)
  | gate (connective : Gate) (left right : Term)
  /-- A term in parentheses. -/
  | group (inner : Term)

/-- Truth values for all names. -/
abbrev Assignment := String → Bool

namespace Term

instance : XorOp Term := ⟨.gate .xor⟩
instance : AndOp Term := ⟨.gate .and⟩
instance : OrOp Term := ⟨.gate .or⟩

def text : Term → String
  | .var name => name
  | .bit false => "0"
  | .bit true => "1"
  | .nothing => ""
  | .neg inner => inner.text ++ "'"
  | .gate connective left right => left.text ++ connective.symbol ++ right.text
  | .group inner => "(" ++ inner.text ++ ")"

def eval (value : Assignment) : Term → Bool
  | .var name => value name
  | .bit b => b
  | .nothing => true
  | .neg inner => !inner.eval value
  | .gate connective left right => connective.apply (left.eval value) (right.eval value)
  | .group inner => inner.eval value

/-- Terms joined from the left by one connective. -/
def joined (connective : Gate) : List Term → Term
  | [] => .nothing
  | first :: rest => rest.foldl (.gate connective) first

def wire (name : String) (index : Int) : Term :=
  .var s!"{name}{index}"

/-- The other value of a bit, written as its sum with one. -/
def flipped (t : Term) : Term :=
  .group (t ^^^ .bit true)

def sum (a b carry : Term) : Term :=
  .group (a ^^^ b ^^^ carry)

/-- What three bits carry over. -/
def carry (a b carry : Term) : Term :=
  .group (.group (a &&& b) ||| .group (.group (a ^^^ b) &&& carry))

end Term

inductive Clause where
  | define (name : String) (value : Term)
  | demand (term : Term)

namespace Clause

def text : Clause → String
  | .define name value => name ++ "=" ++ value.text
  | .demand term => term.text

def holds (value : Assignment) : Clause → Bool
  | .define name term => value name == term.eval value
  | .demand term => term.eval value

def defined? : Clause → Option String
  | .define name _ => some name
  | .demand _ => none

def wire (name : String) (index : Int) (value : Term) : Clause :=
  .define s!"{name}{index}" value

def fix (name : String) (value : Bool) : Clause :=
  .define name (.bit value)

def fixWire (name : String) (index : Int) (value : Bool) : Clause :=
  .define s!"{name}{index}" (.bit value)

end Clause

namespace Formula

def joinTexts (texts : List String) : String :=
  " && ".intercalate texts

def text (clauses : List Clause) : String :=
  joinTexts (clauses.map Clause.text)

/-- All clauses are true under an assignment. -/
def holds (value : Assignment) (clauses : List Clause) : Bool :=
  clauses.all (Clause.holds value)

def definedNames (clauses : List Clause) : List String :=
  (clauses.filterMap Clause.defined?).eraseDups

def fixAll (value : Bool) (names : List String) : List Clause :=
  names.map fun name => .fix name value

/-- Whether a number is odd: the value that sample inputs alternate with. -/
def odd (n : Int) : Bool :=
  n % 2 == 1

/-- Bit `i` of an integer in two's complement. -/
def bitOf (value : Int) (i : Nat) : Bool :=
  value / (Nat.pow 2 i : Nat) % 2 == 1

/-- The numbers from `0` up to a width; none if the width is not positive. -/
def places (width : Int) : List Nat :=
  List.range width.toNat

def laterPlaces (width : Int) : List Nat :=
  (List.range (width - 1).toNat).map (· + 1)

/-- Fixes the bits of a value, the lowest first. -/
def fixBits (value : Int) (name : String) (width : Int) : List Clause :=
  (places width).map fun (i : Nat) => .fixWire name i (bitOf value i)

end Formula

end Zkvm
