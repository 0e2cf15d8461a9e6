import Zkvm.Json.Basic

/-!
# Reading structured data

Access to the parts of a value whose shape is known.  What is not there, or is something else, reads
as nothing, zero or empty.
-/
set_option autoImplicit false

namespace Zkvm.Json

def field (key : String) (value : Json) : Json :=
  (value.get? key).getD .null

/-- A number; a truth value counts as one or zero. -/
def toInt : Json → Int
  | .int n => n
  | .bool b => if b then 1 else 0
  | _ => 0

def toNat (value : Json) : Nat :=
  value.toInt.toNat

def toText : Json → String
  | .str s => s
  | _ => ""

/-- Whether a value counts as true: nothing, zero and what is empty do not. -/
def toBool : Json → Bool
  | .null => false
  | .bool b => b
  | .int n => n != 0
  | .float x => x != 0.0
  | .str s => s != ""
  | .arr items => !items.isEmpty
  | .obj fields => !fields.isEmpty

def toFloat : Json → Float
  | .float x => x
  | .int n => Float.ofInt n
  | _ => 0.0

def toItems : Json → List Json
  | .arr items => items
  | _ => []

def toFields : Json → List (String × Json)
  | .obj fields => fields
  | _ => []

def toTexts (value : Json) : List String :=
  value.toItems.map toText

def toInts (value : Json) : List Int :=
  value.toItems.map toInt

def toTexts? : Json → Option (List String)
  | .arr items => some (items.map toText)
  | _ => none

def nat (n : Nat) : Json :=
  .int n

def ints (values : List Int) : Json :=
  .arr (values.map .int)

def optional {α : Type} (json : α → Json) : Option α → Json
  | some value => json value
  | none => .null

def textPairs (items : List (String × String)) : Json :=
  .arr (items.map fun (first, second) => texts [first, second])

def textFields (items : List (String × String)) : Json :=
  .obj (items.map fun (key, text) => (key, .str text))

def sortTexts (items : List String) : List String :=
  items.mergeSort fun a b => decide (a ≤ b)

def textSet (items : List String) : Json :=
  texts (sortTexts items.eraseDups)

end Zkvm.Json
