import Zkvm.Json.Fields
import Zkvm.Lookup.Encoding
import Zkvm.Text.Case
import Zkvm.Workspace.Action

/-!
# Files of lookup tables

Every entry of a table is written to a file of its own, unless its statement is too long for the
solver.
-/
set_option autoImplicit false

namespace Zkvm.Lookup

structure Case where
  a : Int
  b : Int
  expected : Int
  description : String := ""

namespace Case

def ofJson (record : Json) : Case :=
  ⟨(record.field "a").toInt, (record.field "b").toInt, (record.field "expected").toInt,
    (record.field "description").toText⟩

def json (c : Case) : Json := .obj [
  ("a", .int c.a), ("b", .int c.b), ("expected", .int c.expected),
  ("description", .str c.description)]

end Case

def Operation.ofName? (name : String) : Option Operation :=
  Operation.all.find? fun operation => operation.name = Text.lower name

/-- The width of computations, the longest statement that is accepted, and where files go. -/
structure Settings where
  directory : String
  width : Int := 8
  maxLength : Int := 700

namespace Settings

def file (settings : Settings) (op : Operation) (entry : Case) : Except Failure (String × String) :=
  let statement := Formula.text (encode op settings.width entry.a entry.b entry.expected)
  if (statement.length : Int) > settings.maxLength then .error (.tooLong none statement.length)
  else
    let note := if entry.description = "" then "" else s!"# {entry.description}"
    .ok (s!"lut_{op.name}_{entry.a}_{entry.b}.tau",
      s!"# {Text.upper op.name} lookup validation: {entry.a} {op.name} {entry.b} = " ++
      s!"{entry.expected}\n{note}\n" ++
        s!"solve {statement}\n\nquit")

def openAt (directory : String) : Action Settings := do
  Action.makeDirectories directory
  pure { directory }

/-- Writes one entry; one that is too long is skipped with a message. -/
def save (settings : Settings) (op : Operation) (entry : Case) : Action (List String) := do
  match settings.file op entry with
  | .ok (name, text) =>
    Action.writeFile (Path.join settings.directory name) text
    Action.say s!"Generated {name}"
    pure [name]
  | .error failure =>
    Action.say s!"Skipped {op.name} {entry.a},{entry.b}: {failure.message}"
    pure []

end Settings

def standardCases : List (Operation × List Case) := [
  (.and, [⟨0, 0, 0, "Zero AND"⟩, ⟨255, 255, 255, "All ones"⟩, ⟨15, 240, 0, "No overlap"⟩,
    ⟨170, 85, 0, "Alternating bits"⟩]),
  (.or, [⟨0, 0, 0, "Zero OR"⟩, ⟨255, 255, 255, "All ones"⟩, ⟨15, 240, 255, "Complete coverage"⟩,
    ⟨170, 85, 255, "Alternating bits"⟩]),
  (.xor, [⟨0, 0, 0, "Zero XOR"⟩, ⟨255, 255, 0, "Same value"⟩, ⟨170, 85, 255, "Alternating bits"⟩,
    ⟨15, 240, 255, "Complementary"⟩]),
  (.add, [⟨0, 0, 0, "Zero addition"⟩, ⟨15, 16, 31, "Simple add"⟩, ⟨255, 1, 0, "Overflow"⟩,
    ⟨127, 128, 255, "Half overflow"⟩]),
  (.sub, [⟨255, 1, 254, "Simple sub"⟩, ⟨0, 1, 255, "Underflow"⟩, ⟨128, 128, 0, "Equal values"⟩,
    ⟨100, 50, 50, "Normal sub"⟩]),
  (.shl, [⟨1, 0, 1, "No shift"⟩, ⟨1, 1, 2, "Shift left 1"⟩, ⟨1, 7, 128, "Shift to MSB"⟩,
    ⟨255, 1, 254, "Shift with loss"⟩]),
  (.shr, [⟨128, 0, 128, "No shift"⟩, ⟨128, 1, 64, "Shift right 1"⟩, ⟨128, 7, 1, "Shift to LSB"⟩,
    ⟨255, 1, 127, "Shift all bits"⟩])]

def saveAll (settings : Settings) : Action (List String) := do
  let saved ← standardCases.mapM fun (op, entries) => entries.mapM (settings.save op)
  pure saved.flatten.flatten

end Zkvm.Lookup
