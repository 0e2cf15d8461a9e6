import Zkvm.Json.Fields
import Zkvm.Text.Numeral
import Zkvm.Text.Quoted

/-!
# Causes of failure

Why an operation of the library is refused.  The wording of each cause is in `Failure.message`
alone.
-/
set_option autoImplicit false

namespace Zkvm

inductive PathTrouble where
  | missing
  | exists
  | notADirectory
  | isADirectory
  | tooLong
  /-- The path has the character zero in it. -/
  | nullByte

namespace PathTrouble

def text : PathTrouble → String
  | .missing => "[Errno 2] No such file or directory"
  | .exists => "[Errno 17] File exists"
  | .notADirectory => "[Errno 20] Not a directory"
  | .isADirectory => "[Errno 21] Is a directory"
  | .tooLong => "[Errno 36] File name too long"
  | .nullByte => "embedded null byte"

end PathTrouble

inductive NoiseTrouble where
  | wrongLength
  | beyondBound
  | differentDimensions

def NoiseTrouble.text : NoiseTrouble → String
  | .wrongLength => "Noise vector dimension mismatch"
  | .beyondBound => "Noise element exceeds bound"
  | .differentDimensions => "Noise dimension mismatch"

inductive Failure where
  | path (trouble : PathTrouble) (name : String)
  | malformed (reason : String)
  | missingKey (key : String)
  /-- A statement with too many characters, of a named thing or of none. -/
  | tooLong (owner : Option String) (length : Nat)
  | contractTooLong (name : String) (length : Nat)
  /-- A statement that composes a contract has too many characters. -/
  | compositionTooLong (length : Nat)
  /-- A value of this kind has no fields that could be set. -/
  | noFields (kind : String)
  /-- A value of this kind has no items. -/
  | noItems (kind : String)
  /-- A value of this kind has nothing that is found by a name. -/
  | noKeys (kind : String)
  /-- Something is asked of a thing that cannot do it. -/
  | noAbility (owner ability : String)
  | divisionByZero
  /-- A whole number is too large for a double. -/
  | beyondDoubles
  /-- Two kinds of values have no order. -/
  | noOrder (sign left right : String)
  /-- A value of this kind cannot be in a set. -/
  | noElement (kind : String)
  /-- A value of this kind is no path, or no part of one. -/
  | noPath (kind : String)
  | noPathPart (kind : String)
  | outOfRange
  | noise (trouble : NoiseTrouble)
  | negativeShift
  /-- A step is given more than it takes; what it belongs to is counted on both sides. -/
  | tooManyInputs (step : String) (taken given : Nat)
  | missingInput (step input : String)
  /-- What a job depends on was not done in time. -/
  | waitedTooLong
  /-- Work is to be shared among nobody. -/
  | noWorkers
  /-- Something of a sort that is not known. -/
  | unknown (sort text : String)
  /-- An operation with more or fewer than three variables. -/
  | notThreeVariables (operation : String)
  /-- A number that is to be written out has too many digits. -/
  | unwritable
  /-- Names lead on to one another for longer than they can be followed. -/
  | tooDeep

namespace Failure

def message : Failure → String
  | .path .nullByte _ => PathTrouble.nullByte.text
  | .path trouble name => s!"{trouble.text}: {Text.quoted name}"
  | .malformed reason => reason
  | .missingKey key => Text.quoted key
  | .tooLong none length => s!"Expression too long ({length} chars)"
  | .tooLong (some owner) length => s!"{owner}: Expression too long ({length} chars)"
  | .contractTooLong name length => s!"Contract {name} too long: {length} chars"
  | .compositionTooLong length => s!"Expression too long: {length} chars"
  | .noFields "list" => "list indices must be integers or slices, not str"
  | .noFields kind => s!"'{kind}' object does not support item assignment"
  | .noItems kind => s!"'{kind}' object is not iterable"
  | .noKeys "list" => "list indices must be integers or slices, not str"
  | .noKeys "str" => "string indices must be integers, not 'str'"
  | .noKeys kind => s!"'{kind}' object is not subscriptable"
  | .noAbility owner ability => s!"'{owner}' object has no attribute '{ability}'"
  | .divisionByZero => "division by zero"
  | .beyondDoubles => "int too large to convert to float"
  | .noOrder sign left right =>
    s!"'{sign}' not supported between instances of '{left}' and '{right}'"
  | .noElement kind => s!"unhashable type: '{kind}'"
  | .noPath kind => s!"expected str, bytes or os.PathLike object, not {kind}"
  | .noPathPart kind => s!"join() argument must be str, bytes, or os.PathLike object, not '{kind}'"
  | .outOfRange => "list index out of range"
  | .noise trouble => trouble.text
  | .negativeShift => "negative shift count"
  | .tooManyInputs step 1 given => s!"{step} takes 1 positional argument but {given} were given"
  | .tooManyInputs step taken given =>
    s!"{step} takes {taken} positional arguments but {given} were given"
  | .missingInput step input => s!"{step} missing 1 required positional argument: '{input}'"
  | .waitedTooLong => "Timeout waiting for dependencies"
  | .noWorkers => "max_workers must be greater than 0"
  | .unknown sort text => s!"Unknown {sort}: {text}"
  | .notThreeVariables operation => s!"{operation} requires exactly 3 variables"
  | .unwritable => Text.tooManyDigits
  | .tooDeep => "maximum recursion depth exceeded while calling a Python object"

end Failure

/-- Refuses to write numbers out if one of them is too long. -/
def writeNumbers (numbers : List Int) : Except Failure Unit :=
  if ∀ n ∈ numbers, Text.Writable n then .ok () else .error .unwritable

namespace Json

def kindName : Json → String
  | .null => "NoneType"
  | .bool _ => "bool"
  | .int _ => "int"
  | .float _ => "float"
  | .str _ => "str"
  | .arr _ => "list"
  | .obj _ => "dict"

/-- A record with a field set; nothing else has fields. -/
def withField (record : Json) (key : String) (value : Json) : Except Failure Json :=
  match record with
  | .obj fields => .ok (.obj (put key value fields))
  | other => .error (.noFields other.kindName)

def demandField (key : String) : Json → Except Failure Json
  | .obj fields =>
    match (obj fields).get? key with
    | some value => .ok value
    | none => .error (.missingKey key)
  | other => .error (.noKeys other.kindName)

/-- The fields of a record, of which something is asked that only a record can do. -/
def demandRecord (ability : String) : Json → Except Failure (List (String × Json))
  | .obj fields => .ok fields
  | other => .error (.noAbility other.kindName ability)

def demandFields : Json → Except Failure (List (String × Json)) :=
  demandRecord "items"

/-- The values of a list, the names of a record or the characters of a text; nothing else has
items. -/
def iterateValues : Json → Except Failure (List Json)
  | .arr items => .ok items
  | .obj fields => .ok (fields.map fun (key, _) => .str key)
  | .str text => .ok (text.toList.map fun c => .str (String.singleton c))
  | other => .error (.noItems other.kindName)

def iterate (value : Json) : Except Failure (List String) :=
  value.iterateValues.map fun items => items.map toText

end Json

end Zkvm
