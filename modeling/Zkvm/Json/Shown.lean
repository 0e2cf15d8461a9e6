import Zkvm.Text.Quoted

/-!
# Values in running text

How a value is shown to a reader: a text as it is, and every other value by a word, by its digits or
by its parts.  Texts that are parts of another value are quoted.
-/
set_option autoImplicit false

namespace Zkvm.Json

mutual

def shownPart : Json → String
  | .null => "None"
  | .bool true => "True"
  | .bool false => "False"
  | .int value => toString value
  | .float value => Text.shortest Text.plainNumber value
  | .str value => Text.quoted value
  | .arr items => "[" ++ ", ".intercalate (shownParts items) ++ "]"
  | .obj fields => "\x7b" ++ ", ".intercalate (shownFields fields) ++ "\x7d"

def shownParts : List Json → List String
  | [] => []
  | item :: rest => shownPart item :: shownParts rest

def shownFields : List (String × Json) → List String
  | [] => []
  | (key, value) :: rest => (Text.quoted key ++ ": " ++ shownPart value) :: shownFields rest

end

mutual

def numbers : Json → List Int
  | .int value => [value]
  | .arr items => numbersOf items
  | .obj fields => numbersIn fields
  | .null | .bool _ | .float _ | .str _ => []

def numbersOf : List Json → List Int
  | [] => []
  | item :: rest => numbers item ++ numbersOf rest

def numbersIn : List (String × Json) → List Int
  | [] => []
  | (_, value) :: rest => numbers value ++ numbersIn rest

end

def shown : Json → String
  | .str value => value
  | other => shownPart other

end Zkvm.Json
