/-!
# Classes of characters

A class of the Unicode character database is given by its runs: the first and the last code point of
each row of neighbours that belong to it.
-/
set_option autoImplicit false

namespace Zkvm.Text

def inRuns (runs : List (Nat × Nat)) (code : Nat) : Bool :=
  runs.any fun (first, last) => first ≤ code && code ≤ last

end Zkvm.Text
