import Zkvm.Number

/-!
# Jobs

A job asks the maker of a module for the components of several operations, after the jobs that it
depends on. Jobs, what became of them, and the plans for all components come in two styles: the
timed one also keeps settings and times.
-/
set_option autoImplicit false

namespace Zkvm.Work

inductive Style where
  | plain
  | timed
deriving DecidableEq

structure Job where
  name : String
  /-- The name of the module that makes the components. -/
  maker : String
  operations : List String
  dependencies : List String := []
  settings : Json := .null

namespace Job

def json (style : Style) (job : Job) : Json :=
  let common :=
    [("name", .str job.name), ("module", .str job.maker), ("dependencies", .texts job.dependencies)]
  match style with
  | .plain => .obj (common ++ [("instructions", .texts job.operations)])
  | .timed => .obj (common ++ [("operations", .texts job.operations), ("config", job.settings)])

def ofJson (style : Style) (value : Json) : Job where
  name := (value.field "name").toText
  maker := (value.field "module").toText
  operations := (value.field (if style = .plain then "instructions" else "operations")).toTexts
  dependencies := (value.field "dependencies").toTexts
  settings := value.field "config"

end Job

structure Yield where
  components : Int := 0
  files : List String := []
  contracts : List (String × Json) := []

structure Outcome extends Yield where
  name : String
  success : Bool
  error : Option String := none
  time : Number := .double 0.0

namespace Outcome

def json (style : Style) (outcome : Outcome) : Json :=
  .obj ([("task_name", .str outcome.name), ("components_generated", .int outcome.components),
    ("files", .texts outcome.files), ("contracts", .obj outcome.contracts),
    ("success", .bool outcome.success), ("error", .optional .str outcome.error)] ++
    if style = .timed then [("execution_time", outcome.time.json)] else [])

def ofJson (value : Json) : Outcome where
  components := (value.field "components_generated").toInt
  files := (value.field "files").toTexts
  contracts := (value.field "contracts").toFields
  name := (value.field "task_name").toText
  success := (value.field "success").toBool
  error := match value.field "error" with
    | .str text => some text
    | _ => none
  time := (Number.ofJson? (value.field "execution_time")).getD (.double 0.0)

def timeText (outcome : Outcome) : Except Failure String :=
  outcome.time.fixed 2

def errorText (outcome : Outcome) : String :=
  outcome.error.getD "None"

end Outcome

/-- The jobs that make everything, in waves: each depends on jobs before it. -/
def plan (style : Style) : List Job :=
  let test : Json := match style with
    | .plain => .null
    | .timed =>
      .obj
        [("components", .texts ["arithmetic", "logical", "memory", "control", "stack", "crypto"])]
  let system : Job := { name := "isa_system", maker := "isa"
                        operations :=
                          ["NOP", "HALT", "DEBUG", "ASSERT", "LOG", "READ", "WRITE", "SEND", "RECV",
                          "TIME", "RAND", "ID"] }
  [{ name := "isa_arithmetic", maker := "isa", operations := ["ADD", "SUB", "MUL", "DIV", "MOD"] },
    { name := "isa_bitwise", maker := "isa",
      operations := ["AND", "OR", "XOR", "NOT", "SHL", "SHR"] },
    { name := "isa_comparison", maker := "isa",
      operations := ["EQ", "NEQ", "LT", "GT", "LTE", "GTE"] },
    { name := "memory_basic", maker := "memory",
      operations := ["LOAD", "STORE", "MLOAD", "MSTORE"] }] ++
  (if style = .plain then [system] else []) ++
  [{ name := "isa_control", maker := "isa", operations := ["JMP", "JZ", "JNZ", "CALL", "RET"]
     dependencies := ["isa_comparison"] },
    { name := "memory_stack", maker := "memory", operations := ["PUSH", "POP", "DUP", "SWAP"]
      dependencies := ["memory_basic"] },
    { name := "folding_basic", maker := "folding", operations := ["FOLD", "UNFOLD", "COMMIT"] },
    { name := "isa_crypto", maker := "isa", operations := ["HASH", "VERIFY", "SIGN"]
      dependencies := ["isa_arithmetic", "isa_bitwise"] },
    { name := "execution_engine", maker := "execution", operations := ["EXEC", "STEP", "TRACE"]
      dependencies := ["isa_arithmetic", "isa_control", "memory_basic"] },
    { name := "proving_network", maker := "proving",
      operations := ["PROVE", "AGGREGATE", "VALIDATE"]
      dependencies := ["folding_basic", "execution_engine"] },
    { name := "test_suite", maker := "test", operations := ["TEST_ALL"]
      dependencies :=
        ["isa_arithmetic", "isa_bitwise", "memory_basic", "execution_engine"], settings := test }]

end Zkvm.Work
