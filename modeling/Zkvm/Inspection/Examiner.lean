import Zkvm.Json.Fields
import Zkvm.Text.Case
import Zkvm.Workspace.Session

/-!
# Examining files

An examiner measures the statement of a file and, if it is short enough, asks the solver about it.
The findings on all files of several directories are counted and go to a report.
-/
set_option autoImplicit false

namespace Zkvm.Inspection

/-- What is between the word that begins a statement, with one character after it, and the end of
that line. -/
def statementOf (text : String) : String :=
  match Text.find? "solve" text with
  | none => ""
  | some place =>
    let rest := text.toList.drop (place + 6)
    Text.trim (String.ofList (rest.takeWhile (· ≠ '\n')))

def readStatement (path : String) : Action String :=
  return statementOf (← Action.readFile path)

/-- The longest statement that the solver is asked about. -/
def maxStatement : Nat := 800

inductive Outcome where
  | satisfiable (solution : String)
  | unsatisfiable (output : String)
  | unknown (output : String)
  | error (text : String)
  | tooLarge
  | timedOut

namespace Outcome

def status : Outcome → String
  | .satisfiable _ => "satisfiable"
  | .unsatisfiable _ => "unsatisfiable"
  | .unknown _ => "unknown"
  | .error _ => "error"
  | .tooLarge => "too_large"
  | .timedOut => "timeout"

def solutionText (solution : String) : String :=
  if 200 < solution.length then Text.take 200 solution ++ "..." else solution

/-- What is noted beside the status, under which name. -/
def detail (length : Nat) : Outcome → String × String
  | .satisfiable solution => ("solution", solutionText solution)
  | .unsatisfiable output => ("output", Text.take 200 output)
  | .unknown output => ("output", Text.take 200 output)
  | .error text => ("error", text)
  | .tooLarge => ("error", s!"Expression too long: {length} chars (limit: {maxStatement})")
  | .timedOut => ("error", "Validation exceeded 5 seconds")

/-- The solution in an output: it goes up to the history, if there is one. -/
def solution? (output : String) : Option String :=
  (Text.find? "solution:" output).map fun start =>
    let rest := String.ofList (output.toList.drop start)
    Text.trim (Text.take ((Text.find? "history" rest).getD rest.length) rest)

def ofAnswer : Answer → Outcome
  | .timedOut _ => .timedOut
  | .failed reason => .error reason
  | .ran _ out err =>
    match solution? out with
    | some solution => .satisfiable solution
    | none =>
      if Text.mentions out "UNSAT" ||
        Text.mentions (Text.lower out) "unsatisfiable" then .unsatisfiable out
      else if err ≠ "" then .error ((Text.split '\n' (Text.trim err)).headD "")
      else .unknown out

end Outcome

structure Finding where
  /-- The length of the statement. -/
  length : Nat
  outcome : Outcome

namespace Finding

def json (finding : Finding) : Json :=
  let (name, text) := finding.outcome.detail finding.length
  .obj [("status", .str finding.outcome.status), ("expression_length", .nat finding.length),
    (name, .str text)]

def line (finding : Finding) : String :=
  match finding.outcome with
  | .satisfiable _ => s!"✓ SATISFIABLE ({finding.length} chars)"
  | .tooLarge => s!"✗ TOO LARGE ({finding.length} chars)"
  | .error text => s!"✗ ERROR: {Text.take 50 text}..."
  | .timedOut => "✗ TIMEOUT"
  | other => "? " ++ Text.upper other.status

end Finding

def examine (path : String) : Action Finding := do
  let file := Path.clean path
  let length := (← readStatement file).length
  if maxStatement < length then pure ⟨length, .tooLarge⟩
  else return ⟨length, .ofAnswer (← Action.solve file)⟩

structure Examiner where
  /-- The directory of the report. -/
  directory : String
  /-- The findings in the order in which they were made. -/
  findings : List (String × Finding) := []

namespace Examiner

def defaultDirectory : String := "build/validation_results"

def openAt (directory : String) : Action Examiner := do
  Action.makeDirectories (Path.clean directory)
  pure { directory := Path.clean directory }

def count (examiner : Examiner) (status : String) : Nat :=
  examiner.findings.countP fun (_, finding) => finding.outcome.status = status

def total (examiner : Examiner) : Nat := examiner.findings.length

def statistics (examiner : Examiner) : Json :=
  let counted (status : String) := (status, Json.nat (examiner.count status))
  .obj [counted "unknown", ("total", .nat examiner.total), counted "satisfiable",
    counted "unsatisfiable", counted "error", counted "too_large", counted "timeout"]

/-- The latest finding on each file. -/
def latest (examiner : Examiner) : List (String × Finding) :=
  examiner.findings.foldl (fun found (path, finding) => Json.put path finding found) []

def directories (examiner : Examiner) : List String :=
  (examiner.findings.map fun (path, _) => Path.parent path).eraseDups

def examineEach (count : Nat) (number : Nat) : List String → Session Examiner Unit
  | [] => pure ()
  | path :: rest => do
    Session.act (Action.write s!"[{number}/{count}] {Text.padRight 30 (Path.name path)} ")
    let finding ← Session.act (examine path)
    Session.update fun examiner =>
      { examiner with findings := examiner.findings ++ [(path, finding)] }
    Session.act (Action.say finding.line)
    examineEach count (number + 1) rest

def examineDirectory (directory : String) : Session Examiner Unit := do
  let files := Json.sortTexts (← Session.act (Action.listFiles directory ".tau"))
  if files.isEmpty then Session.act (Action.say s!"No .tau files found in {directory}")
  else
    Session.act (Action.sayAll [s!"\nValidating {files.length} files in {directory}...",
      Text.repeated 80 '-'])
    examineEach files.length 1 files

def rate (examiner : Examiner) : Json :=
  if examiner.total = 0 then .int 0
  else .float (Float.ofNat (examiner.count "satisfiable") / Float.ofNat examiner.total)

def report (examiner : Examiner) : Json := .obj [
  ("timestamp", .str "TIMESTAMP"), ("statistics", examiner.statistics),
  ("success_rate", examiner.rate), ("directories_tested", .texts examiner.directories),
  ("detailed_results", .obj (examiner.latest.map fun (path, finding) => (path, finding.json)))]

def share (examiner : Examiner) (title status : String) : String :=
  let count := examiner.count status
  s!"{title}: {count} ({Text.fixed 1 (Text.percent count examiner.total)}%)"

/-- Writes the report and sums it up, and gives its path.  The summary needs at least one
finding. -/
def saveReport (examiner : Examiner) : Action String := do
  let path := Path.under examiner.directory "validation_report.json"
  let rule := Text.repeated 80 '='
  Action.writeFile path examiner.report.pretty
  Action.sayAll ["\n" ++ rule, "VALIDATION SUMMARY", rule, s!"Total files tested: {examiner.total}"]
  if examiner.total = 0 then Action.fail .divisionByZero
  Action.sayAll [examiner.share "Satisfiable" "satisfiable", examiner.share "Too large" "too_large",
    examiner.share "Errors" "error", examiner.share "Timeouts" "timeout",
    s!"\nDetailed report: {path}"]
  if 0 < examiner.count "too_large" then
    let large := examiner.latest.filter fun (_, finding) => finding.outcome.status = "too_large"
    Action.say "\n⚠️  Files that exceed 800 char limit:"
    Action.sayAll
      (large.map fun (file, finding) => s!"  - {Path.name file}: {finding.length} chars")
  pure path

def usualDirectories : List String :=
  ["build/compositional", "build/compositional_fixed", "build/zkvm_compositional", "build/zkvm"]

def examineUsual : Session Examiner Unit := do
  usualDirectories.forM fun directory => do
    if ← Session.act (Action.exists? directory) then examineDirectory directory
    else Session.act (Action.say s!"Directory not found: {directory}")
  let examiner ← Session.own
  if 0 < examiner.total then
    let _ ← Session.act examiner.saveReport
  else Session.act (Action.say "No files validated.")

def demonstrate : Action Unit := do
  examineUsual.withNew (← openAt defaultDirectory)

end Examiner

end Zkvm.Inspection
