import Zkvm.Number
import Zkvm.Testing.Case

/-!
# Suites of test cases

A generator makes a suite of test cases for every component, keeps the suites of earlier requests,
and reports which share of the instructions they cover.
-/
set_option autoImplicit false

namespace Zkvm.Testing

structure Suite where
  component : String
  tests : List Case := []

namespace Suite

def add (suite : Suite) (test : Case) : Suite :=
  { suite with tests := suite.tests ++ [test] }

/-- The texts of the test cases by name; a later one takes the place of an earlier of the same
name. -/
def contracts (suite : Suite) : List (String × String) :=
  suite.tests.foldl (fun found test => Json.put s!"{suite.component}_{test.name}" test.text found)
    []

end Suite

def number (n : Int) : Json := .int n

def truth (b : Bool) : Json := .bool b

def basicTests : String → List Case
  | "arithmetic" => [
      { name := "add_simple", description := "Basic addition test", instruction := "ADD"
        inputs := [("a", number 5), ("b", number 3)]
        expected := [("result", number 8), ("overflow", truth false)] },
      { name := "sub_simple", description := "Basic subtraction test", instruction := "SUB"
        inputs := [("a", number 10), ("b", number 3)]
        expected := [("result", number 7), ("underflow", truth false)] },
      { name := "mul_simple", description := "Basic multiplication test", instruction := "MUL"
        inputs := [("a", number 4), ("b", number 3)]
        expected := [("result", number 12), ("overflow", truth false)] }]
  | "logical" => [
      { name := "and_basic", description := "Basic AND operation", instruction := "AND"
        inputs := [("a", number 10), ("b", number 12)], expected := [("result", number 8)] },
      { name := "or_basic", description := "Basic OR operation", instruction := "OR"
        inputs := [("a", number 10), ("b", number 5)], expected := [("result", number 15)] },
      { name := "xor_basic", description := "Basic XOR operation", instruction := "XOR"
        inputs := [("a", number 10), ("b", number 12)], expected := [("result", number 6)] }]
  | "memory" => [
      { name := "load_store", description := "Basic load/store test", instruction := "STORE_LOAD"
        inputs := [("addr", number 0x100), ("value", number 42)]
        expected := [("loaded", number 42), ("success", truth true)] }]
  | "control" => [
      { name := "jump_conditional", description := "Conditional jump test", instruction := "JZ"
        inputs := [("condition", number 0), ("target", number 0x200)]
        expected := [("pc", number 0x200), ("jumped", truth true)] }]
  | "stack" => [
      { name := "push_pop", description := "Basic push/pop test", instruction := "PUSH_POP"
        inputs := [("value", number 123)], expected :=
          [("popped", number 123), ("success", truth true)] }]
  | _ => []

def edgeTest? (component edge : String) : Option Case :=
  match component, edge with
  | "arithmetic", "overflow" => some
      { name := "add_overflow", description := "Addition overflow test", instruction := "ADD"
        inputs := [("a", number 255), ("b", number 1)]
        expected := [("result", number 0), ("overflow", truth true)], edgeCase := true }
  | "arithmetic", "underflow" => some
      { name := "sub_underflow", description := "Subtraction underflow test", instruction := "SUB"
        inputs := [("a", number 0), ("b", number 1)]
        expected := [("result", number 255), ("underflow", truth true)], edgeCase := true }
  | "logical", "all_ones" => some
      { name := "not_all_ones", description := "NOT operation on all ones", instruction := "NOT"
        inputs := [("a", number 0xff)], expected := [("result", number 0)], edgeCase := true }
  | "memory", "boundary" => some
      { name := "memory_boundary", description := "Memory boundary access test",
        instruction := "LOAD"
        inputs := [("addr", number 0xffff)]
        expected := [("success", truth false), ("exception", .str "boundary")], edgeCase := true }
  | "stack", "empty" => some
      { name := "pop_empty", description := "Pop from empty stack", instruction := "POP"
        inputs := [("stack_size", number 0)]
        expected := [("success", truth false), ("exception", .str "underflow")], edgeCase := true }
  | _, _ => none

def performanceTests : String → List Case
  | "arithmetic" => [
      { name := "mul_performance", description := "Multiplication performance test",
        instruction := "MUL"
        inputs := [("a", number 127), ("b", number 127)], expected := [("result", number 16129)]
        performanceTarget := .float 1.0 }]
  | "memory" => [
      { name := "sequential_access", description := "Sequential memory access performance"
        instruction := "SEQ_ACCESS", inputs := [("start", number 0), ("count", number 100)]
        expected := [("success", truth true)], performanceTarget := .float 10.0 }]
  | "crypto" => [
      { name := "hash_performance", description := "Hash function performance test",
        instruction := "HASH"
        inputs := [("data", number 0xdeadbeef)], expected := [("hash_computed", truth true)]
        performanceTarget := .float 5.0 }]
  | _ => []

def allComponents : List String :=
  ["arithmetic", "logical", "memory", "control", "stack", "crypto", "io", "system"]

def standardEdgeCases : List (String × List String) := [
  ("arithmetic", ["overflow", "underflow", "zero", "max_value"]),
  ("logical", ["all_ones", "all_zeros", "alternating"]),
  ("memory", ["boundary", "alignment", "collision"]),
  ("control", ["branch_taken", "branch_not_taken", "loop_exit"]),
  ("stack", ["empty", "full", "single_element"]),
  ("crypto", ["weak_key", "known_pattern", "collision"]),
  ("io", ["empty_input", "max_size", "invalid_format"]),
  ("system", ["halt", "exception", "interrupt"])]

structure Settings where
  components : List String := allComponents
  /-- A number. -/
  coverageTarget : Json := .float 0.95
  edgeCases : Bool := true
  performance : Bool := true

structure Generator where
  suites : List (String × Suite) := []
  /-- The names of the edge cases of every component. -/
  edgeCases : List (String × List String) := standardEdgeCases

namespace Generator

def suite (generator : Generator) (settings : Settings) (component : String) : Suite where
  component
  tests := basicTests component ++
    (if settings.edgeCases then
      ((generator.edgeCases.lookup component).getD []).filterMap (edgeTest? component) else []) ++
    if settings.performance then performanceTests component else []

def withSuites (generator : Generator) (settings : Settings) : Generator :=
  settings.components.foldl
    (fun g component =>
      { g with suites := Json.put component (generator.suite settings component) g.suites })
    generator

def contracts (generator : Generator) : List (String × String) :=
  (generator.suites.flatMap fun (_, suite) => suite.contracts).foldl
    (fun found (name, text) => Json.put name text found) []

def testCount (generator : Generator) : Nat :=
  (generator.suites.map fun (_, suite) => suite.tests.length).foldr (· + ·) 0

def instructionCount : Nat := 64

def covered (generator : Generator) : List String :=
  (generator.suites.flatMap fun (_, suite) => suite.tests.map (·.instruction)).eraseDups

def coverage (generator : Generator) : Float :=
  Float.ofNat generator.covered.length / Float.ofNat instructionCount

/-- The first ten numbered instructions that are not tested. -/
def missing (generator : Generator) : List String :=
  (((List.range instructionCount).map fun i => s!"INST_{i}").filter
    fun name => !generator.covered.contains name).take 10

/-- Whether the coverage reaches a target, which has to be a number. -/
def meets (generator : Generator) (target : Json) : Except Failure Bool :=
  match Number.ofJson? target with
  | some number => .ok (number.atMost (.double generator.coverage))
  | none => .error (.noOrder ">=" "float" target.kindName)

def coverageReport (generator : Generator) (target : Json) : Except Failure Json := do
  let met ← generator.meets target
  pure (.obj [
    ("coverage_percentage", .float generator.coverage), ("target_percentage", target),
    ("covered_instructions", .nat generator.covered.length),
    ("total_instructions", .nat instructionCount), ("meets_target", .bool met),
    ("missing_coverage", .texts generator.missing)])

def suiteReport (suite : Suite) : Json := .obj [
  ("component", .str suite.component), ("test_count", .nat suite.tests.length),
  ("edge_cases", .nat (suite.tests.countP (·.edgeCase))),
  ("contracts", .textFields suite.contracts)]

def report (generator : Generator) (target : Json) : Except Failure Json := do
  let coverage ← generator.coverageReport target
  pure (.obj [
    ("status", .str "success"),
    ("test_suites", .obj (generator.suites.map fun (name, suite) => (name, suiteReport suite))),
    ("validation_contracts", .textFields generator.contracts),
    ("coverage_report", coverage),
    ("total_tests", .nat generator.testCount)])

def failureReport (failure : Failure) : Json := .obj [
  ("status", .str "error"), ("error", .str failure.message), ("test_suites", .obj []),
  ("validation_contracts", .obj [])]

/-- Serves a request, whose settings may be unusable.  The suites stay even if the report fails. -/
def generate (generator : Generator) : Except Failure Settings → Json × Generator
  | .error failure => (failureReport failure, generator)
  | .ok settings =>
    let after := generator.withSuites settings
    match after.report settings.coverageTarget with
    | .ok report => (report, after)
    | .error failure => (failureReport failure, after)

end Generator

namespace Case

def ofJson (record : Json) : Case where
  name := (record.field "name").toText
  description := (record.field "description").toText
  instruction := (record.field "instruction").toText
  inputs := (record.field "inputs").toFields
  expected := (record.field "expected").toFields
  edgeCase := (record.field "edge_case").toBool
  performanceTarget := record.field "performance_target"

def json (test : Case) : Json := .obj [
  ("name", .str test.name), ("description", .str test.description),
  ("instruction", .str test.instruction), ("inputs", .obj test.inputs),
  ("expected", .obj test.expected), ("edge_case", .bool test.edgeCase),
  ("performance_target", test.performanceTarget), ("tau", .str test.text)]

end Case

def Suite.ofJson (record : Json) : Suite where
  component := (record.field "component").toText
  tests := (record.field "tests").toItems.map Case.ofJson

namespace Settings

def ofJson (record : Json) : Except Failure Settings := do
  let _ ← record.demandRecord "get"
  let defaults : Settings := {}
  let components ← match record.get? "components" with
    | none => pure defaults.components
    | some given => given.iterate
  pure { components
         coverageTarget := (record.get? "coverage_target").getD defaults.coverageTarget
         edgeCases := ((record.get? "include_edge_cases").map Json.toBool).getD true
         performance := ((record.get? "include_performance").map Json.toBool).getD true }

end Settings

end Zkvm.Testing
