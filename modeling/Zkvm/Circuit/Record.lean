import Zkvm.Circuit.Basic
import Zkvm.Json.Fields

/-!
# Records of circuit modules
-/
set_option autoImplicit false

namespace Zkvm.Circuit

def ConstraintKind.ofName? (name : String) : Option ConstraintKind :=
  ConstraintKind.all.find? fun kind => kind.name = name

namespace Variable

def ofJson (record : Json) : Variable where
  name := (record.field "name").toText
  width := (record.field "width").toInt
  isInput := (record.field "is_input").toBool
  isOutput := (record.field "is_output").toBool

def json (v : Variable) : Json :=
  .arr [.str v.name, .int v.width, .bool v.isInput, .bool v.isOutput]

end Variable

def Constraint.ofJson (record : Json) : Constraint where
  kind := (ConstraintKind.ofName? (record.field "type").toText).getD .boolean
  vars := (record.field "variables").toItems.map Variable.ofJson
  expression := (record.field "expression").toText
  metadata := record.field "metadata"

def Module.ofJson (record : Json) : Module where
  name := (record.field "name").toText
  vars := (record.field "variables").toItems.map Variable.ofJson
  constraints := (record.field "constraints").toItems.map Constraint.ofJson
  dependencies := (record.field "dependencies").toTexts?

/-- Only the names of the variables are shown. -/
def Constraint.json (c : Constraint) : Json := .obj [
  ("type", .str c.kind.name), ("expression", .str c.expression), ("metadata", c.metadata),
  ("variables", .texts (c.vars.map (·.name)))]

def Module.json (m : Module) : Json := .obj [
  ("name", .str m.name), ("variables", .arr (m.vars.map Variable.json)),
  ("constraints", .arr (m.constraints.map Constraint.json)),
  ("dependencies", .optional Json.texts m.dependencies)]

end Zkvm.Circuit
