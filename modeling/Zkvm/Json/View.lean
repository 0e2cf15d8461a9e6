import Zkvm.Json.Fields

/-!
# Views of structured data

A view leaves out the fields of some names, and sorts the lists under others, at every depth.
-/
set_option autoImplicit false

namespace Zkvm.Json

structure View where
  /-- The names of the fields that are left out. -/
  dropped : List String := []
  /-- The names of the fields whose lists are sorted. -/
  sorted : List String := []

/-- Sorts a list: texts by their characters, anything else by how it is written. -/
def sortItems (items : List Json) : List Json :=
  items.mergeSort fun a b =>
    match a, b with
    | .str s, .str t => decide (s ≤ t)
    | a, b => decide (a.compact ≤ b.compact)

namespace View

mutual

def apply (view : View) : Json → Json
  | .arr items => .arr (view.applyItems items)
  | .obj fields => .obj (view.applyFields fields)
  | other => other

def applyItems (view : View) : List Json → List Json
  | [] => []
  | item :: rest => view.apply item :: view.applyItems rest

def applyFields (view : View) : List (String × Json) → List (String × Json)
  | [] => []
  | (key, value) :: rest =>
    if view.dropped.contains key then view.applyFields rest
    else
      match view.apply value with
      | .arr items => (key, .arr (if view.sorted.contains key then sortItems items else items)) ::
        view.applyFields rest
      | inner => (key, inner) :: view.applyFields rest

end

end View

end Zkvm.Json
