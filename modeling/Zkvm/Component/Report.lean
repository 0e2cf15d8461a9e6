import Zkvm.Component.System
import Zkvm.Workspace.Action

/-!
# Generating and validating all components

Every component that is short enough goes to a file under the directory of its operation.  A report
counts them; validation asks the solver about every constraint file that is found and adds its own
counts.
-/
set_option autoImplicit false

namespace Zkvm.Component

def buildDirectory : String := "build/zkvm_100_percent"

structure Saved where
  name : String
  success : Bool
  length : Nat

/-- Writes a component to a directory; whatever stands in the way, it is only reported. -/
def save (component : Component) (directory : String) : Action Saved :=
  Action.orElse
    (do
      let text ← Action.ofExcept component.fileText
      Action.writeFile (Path.under directory s!"{component.name}.tau") text
      pure ⟨component.name, true, component.statement.length⟩)
    (fun _ => pure ⟨component.name, false, 0⟩)

structure Tally where
  instruction : String
  saved : List Saved

namespace Tally

def components (tally : Tally) : Nat := tally.saved.length

def successful (tally : Tally) : Nat := tally.saved.countP (·.success)

def failed (tally : Tally) : Nat := tally.saved.countP fun s => !s.success

def longest (tally : Tally) : Nat := tally.saved.foldl (fun most s => most.max s.length) 0

def json (tally : Tally) : Json := .obj [
  ("status", .str "success"), ("components", .int tally.components),
  ("successful", .int tally.successful), ("failed", .int tally.failed),
  ("max_chars", .int tally.longest)]

end Tally

structure GenerationReport where
  tallies : List Tally

namespace GenerationReport

def total (report : GenerationReport) : Nat :=
  report.tallies.foldl (fun sum tally => sum + tally.components) 0

def successful (report : GenerationReport) : Nat :=
  report.tallies.foldl (fun sum tally => sum + tally.successful) 0

def failed (report : GenerationReport) : Nat :=
  report.tallies.foldl (fun sum tally => sum + tally.failed) 0

def longest (report : GenerationReport) : Nat :=
  report.tallies.foldl (fun most tally => most.max tally.longest) 0

def json (report : GenerationReport) : Json := .obj [
  ("timestamp", .str "TIMESTAMP"),
  ("total_instructions", .int instructions.length),
  ("implemented_instructions", .int report.tallies.length),
  ("total_components", .int report.total),
  ("successful_components", .int report.successful),
  ("failed_components", .int report.failed),
  ("max_expression_length", .int report.longest),
  ("instruction_stats", .obj (report.tallies.map fun tally => (tally.instruction, tally.json)))]

end GenerationReport

def generate (instruction : String) : Action Tally := do
  let directory := Path.under buildDirectory (Text.lower instruction)
  Action.makeDirectories directory
  let saved ← (ofInstruction instruction).mapM fun component => component.save directory
  pure ⟨instruction, saved⟩

def sortByName (tallies : List Tally) : List Tally :=
  tallies.mergeSort fun a b => decide (a.instruction ≤ b.instruction)

def generateAll : Action GenerationReport := do
  Action.makeDirectories buildDirectory
  Action.sayAll ["=== TauFoldZKVM 100% Generation ===",
    s!"Target: {instructions.length} instructions", s!"Output: {buildDirectory}\n"]
  let report : GenerationReport := ⟨← instructions.mapM generate⟩
  Action.writeFile (Path.under buildDirectory "generation_report.json") report.json.pretty
  let rate := Text.fixed 1 (Text.percent report.successful report.total)
  Action.sayAll ["\n=== Generation Summary ===", s!"Total components generated: {report.total}",
    s!"Successful: {report.successful} ({rate}%)", s!"Failed: {report.failed}",
    s!"Max expression length: {report.longest} chars", "\n=== Instruction Breakdown ==="]
  Action.sayAll ((sortByName report.tallies).map fun tally =>
    let share := Text.fixed 0 (Text.percent tally.successful tally.components)
    s!"{tally.instruction}: {tally.components} components, {share}% success, " ++
      s!"max {tally.longest} chars")
  let coverage := Text.percent report.tallies.length instructions.length
  Action.say
    s!"\n=== Coverage: {Text.fixed 1 coverage}% ({report.tallies.length}/{instructions.length}) ==="
  pure report

structure FileVerdict where
  path : String
  verdict : String
  validated : Bool
  satisfiable : Bool

def judge (path : String) : Action FileVerdict := do
  let answer ← Action.solve path
  match answer with
  | .ran _ out _ =>
    if Text.mentions out "solution:" then pure ⟨path, "satisfiable", true, true⟩
    else pure ⟨path, "failed", true, false⟩
  | other => pure ⟨path, "error: " ++ (other.trouble? 5).getD "", false, false⟩

structure ValidationReport where
  verdicts : List FileVerdict

namespace ValidationReport

def files (report : ValidationReport) : Nat := report.verdicts.length

def validated (report : ValidationReport) : Nat := report.verdicts.countP (·.validated)

def satisfiable (report : ValidationReport) : Nat := report.verdicts.countP (·.satisfiable)

/-- The share of satisfiable files among those that the solver could judge; zero if there are
none. -/
def rate (report : ValidationReport) : Float :=
  if report.validated = 0 then 0.0 else Text.percent report.satisfiable report.validated

def rateJson (report : ValidationReport) : Json :=
  if report.validated = 0 then .int 0 else .float report.rate

def rateText (report : ValidationReport) : String :=
  Text.fixed 1 report.rate

/-- All files count as satisfiable if the rate is one hundred. -/
def complete (report : ValidationReport) : Bool :=
  report.rate == 100.0

def json (report : ValidationReport) : Json := .obj [
  ("total_files", .int report.files), ("total_validated", .int report.validated),
  ("total_satisfiable", .int report.satisfiable), ("success_rate", report.rateJson),
  ("results",
    .obj (report.verdicts.foldl (fun fields v => Json.put v.path (.str v.verdict) fields) []))]

end ValidationReport

/-- Asks the solver about all constraint files, and adds the outcome to the report at a path. -/
def validateAll (reportPath : String) : Action (Json × ValidationReport) := do
  let old ← Action.readJson reportPath
  Action.say "\n=== Validating All Components ==="
  let files ← Action.listTree buildDirectory ".tau"
  Action.say s!"Found {files.length} Tau files to validate..."
  let report : ValidationReport := ⟨← files.mapM judge⟩
  let new ← Action.ofExcept (old.withField "validation" report.json)
  Action.writeFile (Path.under buildDirectory "validation_report.json") new.pretty
  Action.sayAll ["\nValidation Results:", s!"Total files: {report.files}",
    s!"Validated: {report.validated}", s!"Satisfiable: {report.satisfiable}",
    s!"Success rate: {report.rateText}%"]
  if report.complete then Action.say "\n✅ 100% VALIDATION ACHIEVED!"
  else Action.say s!"\n❌ Need to fix {report.validated - report.satisfiable} components"
  pure (new, report)

def generateAndValidate : Action Unit := do
  Action.say "TauFoldZKVM - Achieving 100% Implementation and Validation\n"
  let report ← generateAll
  if 0 < report.successful then
    Action.say "\nStarting validation phase..."
    Action.sleep 1.0
    let (_, validation) ← validateAll (Path.under buildDirectory "generation_report.json")
    let coverage := Text.fixed 1 (Text.percent report.tallies.length instructions.length)
    let generated := Text.fixed 1 (Text.percent report.successful report.total)
    Action.sayAll ["\n" ++ Text.repeated 60 '=', "FINAL SUMMARY", Text.repeated 60 '=',
      s!"Instruction coverage: {report.tallies.length}/{instructions.length} ({coverage}%)",
      s!"Component generation: {report.successful}/{report.total} ({generated}%)",
      s!"Validation success: {validation.satisfiable}/{validation.validated} " ++
        s!"({validation.rateText}%)",
      "\nNext steps to reach 100%:", "1. Implement remaining instruction generators",
      "2. Fix any components that exceed character limits",
      "3. Ensure all components validate in Tau", "4. Add integration tests for composition"]

end Zkvm.Component
