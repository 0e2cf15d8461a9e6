import Zkvm.Number
import Zkvm.Workspace.Session

/-!
# Trials of files

A trial asks the solver about one file.  It is made in the directory of the solver; the way back is
taken only after a run that came to its end.  A tester makes trials of the files of modules, keeps
all of them and reports on them.
-/
set_option autoImplicit false

namespace Zkvm.Inspection

structure Trial where
  file : String
  success : Bool
  satisfiable : Bool
  error : Option String
  /-- How long it took, in seconds. -/
  time : Number

namespace Trial

def json (trial : Trial) : Json := .obj [
  ("file", .str trial.file), ("success", .bool trial.success),
  ("satisfiable", .bool trial.satisfiable), ("error", .optional .str trial.error),
  ("execution_time", trial.time.json)]

def ofJson (value : Json) : Trial where
  file := (value.field "file").toText
  success := (value.field "success").toBool
  satisfiable := (value.field "satisfiable").toBool
  error := match value.field "error" with
    | .str text => some text
    | _ => none
  time := (Number.ofJson? (value.field "execution_time")).getD default

def failed (file error : String) : Trial :=
  { file, success := false, satisfiable := false, error := some error, time := .double 0.0 }

def errorText (trial : Trial) : String :=
  trial.error.getD "None"

def timeText (trial : Trial) : Except Failure String :=
  trial.time.fixed 2

end Trial

/-- The first line of an output that speaks of an error. -/
def errorLine? (output : String) : Option String :=
  ((Text.split '\n' output).find? fun line => Text.mentions line "Error").map Text.trim

/-- What a run that came to its end says about a file. -/
def trialOfRun (file : String) (code : Int) (out err : String) : Trial :=
  let satisfiable := Text.mentions out "solution:"
  let success := code = 0 || satisfiable
  let error := if success then none else if err ≠ "" then some (Text.trim err) else errorLine? out
  { file, success, satisfiable, error, time := .double 0.0 }

/-- Asks the solver about a file from the directory of the solver. -/
def attempt (root file : String) : Action Trial := do
  let before ← Action.here
  Action.enter root
  match ← Action.solve file with
  | .ran code out err =>
    Action.goTo before
    pure (trialOfRun file code out err)
  | .timedOut _ => pure (.failed file "Timeout after 30 seconds")
  | .failed reason => pure (.failed file reason)

/-- A trial of a file with the time that it took.  It never fails. -/
def tryFile (root file : String) : Action Trial := do
  let start ← Action.now
  let trial ← Action.orElse (attempt root file) fun failure => pure (.failed file failure.message)
  return { trial with time := .double ((← Action.now) - start) }

/-- The trials of modules, by module and file. -/
abbrev Results := List (String × List (String × Trial))

namespace Results

def json (results : Results) : Json :=
  .obj (results.map fun (name, trials) =>
    (name, .obj (trials.map fun (file, trial) => (file, trial.json))))

def ofJson (value : Json) : Results :=
  value.toFields.map fun (name, trials) =>
    (name, trials.toFields.map fun (file, trial) => (file, .ofJson trial))

def insert (results : Results) (name file : String) (trial : Trial) : Results :=
  Json.put name (Json.put file trial ((results.lookup name).getD [])) results

end Results

structure Tester where
  /-- The directory of the solver. -/
  root : String := "/Users/danax/projects/TauStandardLibrary"
  /-- All trials so far. -/
  trials : List Trial := []

namespace Tester

def keep (file : String) : Session Tester Trial := do
  let trial ← Session.act (tryFile (← Session.own).root file)
  Session.update fun tester => { tester with trials := tester.trials ++ [trial] }
  pure trial

def verdictLine (trial : Trial) : Except Failure String := do
  let time ← trial.timeText
  pure (if trial.satisfiable then s!" ✓ SATISFIABLE ({time}s)"
    else if trial.success then s!" ✓ SUCCESS ({time}s)"
    else s!" ✗ FAILED: {trial.errorText}")

/-- Makes a trial of one more file and tells of it; for a file that stands twice the later trial
counts. -/
def testFile (results : List (String × Trial)) (file : String) :
    Session Tester (List (String × Trial)) := do
  Session.act (Action.write s!"  Testing {file}...")
  let trial ← keep file
  Session.act (Action.ofExcept (verdictLine trial) >>= Action.say)
  pure (Json.put file trial results)

def testFiles (files : List String) : Session Tester (List (String × Trial)) :=
  files.foldlM testFile []

def testModule (name : String) (files : List String) : Session Tester (List (String × Trial)) := do
  Session.act (Action.sayAll [s!"\nTesting module: {name}", Text.repeated 50 '-'])
  testFiles files

def directoryOf (manifest : Json) : Except Failure Json :=
  manifest.demandField "output_dir"

/-- A file with its path below a directory.  Both have to be texts, and the directory is looked at
first. -/
def place (directory file : Json) : Except Failure (String × String) :=
  match directory, file with
  | .str folder, .str name => .ok (name, Path.join folder name)
  | .str _, other => .error (.noPathPart other.kindName)
  | other, _ => .error (.noPath other.kindName)

def placeAll (directory listed : Json) : Except Failure (List (String × String)) := do
  (← listed.iterateValues).mapM (place directory)

def modulesOf (manifest : Json) : Except Failure (List (String × Json)) := do
  (← manifest.demandField "modules").demandFields

def testAll (manifestPath : String) : Session Tester Results := do
  let manifest ← Session.act (Action.readJson manifestPath)
  let directory ← Session.act (Action.ofExcept (directoryOf manifest))
  let modules ← Session.act (Action.ofExcept (modulesOf manifest))
  modules.foldlM (fun results (name, listed) => do
    let files ← Session.act (Action.ofExcept (placeAll directory listed))
    let trials ← testModule name (files.map (·.2))
    pure (Json.put name trials results)) []

def statusLine (name file : String) (trial : Trial) : Except Failure String := do
  let status := if trial.satisfiable then "✓ SAT" else if trial.success then "✓ OK" else "✗ FAIL"
  let time ← trial.timeText
  pure s!"{status} {name}/{file} ({time}s)"

def testTogether (manifestPath : String) (workers : Int) : Session Tester Results := do
  let manifest ← Session.act (Action.readJson manifestPath)
  let directory ← Session.act (Action.ofExcept (directoryOf manifest))
  Session.act (Action.say s!"\nRunning parallel tests with {workers} workers...")
  let modules ← Session.act (Action.ofExcept (modulesOf manifest))
  let tasks ← modules.mapM fun (name, listed) => do
    let files ← Session.act (Action.ofExcept (placeAll directory listed))
    pure (files.map fun file => (name, file))
  if workers ≤ 0 then throw .noWorkers
  tasks.flatten.foldlM (fun (results : Results) (name, file, path) => do
    let trial ← keep path
    Session.act (Action.ofExcept (statusLine name file trial) >>= Action.say)
    pure (results.insert name file trial)) []

/-- What stands before the first colon of an error. -/
def errorSort (error : String) : String :=
  (Text.split ':' error).headD ""

/-- How often each sort of error came up, the most frequent first. -/
def errorCounts (trials : List Trial) : List (String × Nat) :=
  let errors := (trials.filterMap (·.error)).filter (· ≠ "")
  let counts := errors.foldl (fun (counts : List (String × Nat)) error =>
    Json.put (errorSort error) ((counts.lookup (errorSort error)).getD 0 + 1) counts) []
  counts.mergeSort fun a b => decide (b.2 ≤ a.2)

def slowest (trials : List Trial) : List Trial :=
  (trials.mergeSort fun a b => b.time.atMost a.time).take 5

def moduleLines (name : String) (trials : List (String × Trial)) : List String :=
  let satisfiable := trials.countP fun (_, trial) => trial.satisfiable
  s!"\n  {name}: {satisfiable}/{trials.length} satisfiable" ::
    (trials.filter fun (_, trial) => !trial.success).map fun (file, trial) =>
      s!"    ✗ {file}: {trial.errorText}"

/-- How long the trials took altogether and on average.  Without any trial there is no average. -/
def timeLines (trials : List Trial) : Except Failure (List String) := do
  let total ← Number.sum (trials.map (·.time))
  let totalText ← total.fixed 2
  let mean ← total.dividedBy trials.length
  pure [s!"  Total execution time: {totalText}s", s!"  Average time per file: {Text.fixed 2 mean}s"]

def slowestLine (trial : Trial) : Except Failure String :=
  trial.timeText.map fun time => s!"    {trial.file}: {time}s"

def report (tester : Tester) (results : Results) : Except Failure String := do
  let trials := tester.trials
  let failed := trials.countP fun trial => !trial.success
  let rule := Text.repeated 70 '='
  let times ← timeLines trials
  let slow ← (slowest trials).mapM slowestLine
  pure (Text.lines (
    [rule, "TauFoldZKVM Test Report", rule, "", "Summary:",
      s!"  Total files tested: {trials.length}", s!"  Satisfiable: {trials.countP (·.satisfiable)}",
      s!"  Successful: {trials.countP (·.success)}", s!"  Failed: {failed}"] ++ times ++
        ["", "Module Results:"] ++
    results.flatMap (fun (name, found) => moduleLines name found) ++
    ["", "Performance Analysis:", "\n  Slowest files:"] ++ slow ++
    (if failed = 0 then [] else "\n  Error Summary:" ::
      (errorCounts trials).map fun (sort, count) => s!"    {sort}: {count} occurrences") ++
    ["", rule]))

def saveReport (text path : String) : Action Unit := do
  Action.writeFile path text
  Action.say s!"\nReport saved to: {path}"

def manifestPath : String := "build/zkvm/manifest.json"

def testCompiled : Session Tester Unit := do
  Session.act (Action.sayAll ["TauFoldZKVM Test Framework", Text.repeated 50 '='])
  if !(← Session.act (Action.exists? manifestPath)) then
    Session.act (Action.sayAll [s!"Error: Manifest not found at {manifestPath}",
      "Please run zkvm_full_implementation.py first"])
  else
    let results ← testTogether manifestPath 8
    let tester ← Session.own
    Session.act do
      let text ← Action.ofExcept (tester.report results)
      Action.say ("\n" ++ text)
      saveReport text "build/zkvm/test_report.txt"
      Action.say "\nCreating simplified test files for failed cases..."
      let failed := tester.trials.filter fun trial => !trial.success
      if !failed.isEmpty then
        Action.makeDirectories "build/zkvm/debug"
        Action.sayAll
          (((failed.take 5).filter fun trial => Text.mentions trial.errorText "Syntax Error").map
            fun trial => s!"  Creating debug file for {trial.file}")

def demonstrate : Action Unit :=
  testCompiled.withNew {}

end Tester

end Zkvm.Inspection
