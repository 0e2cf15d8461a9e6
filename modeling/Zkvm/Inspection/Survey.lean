import Zkvm.Component.Report

/-!
# A survey of all components

The solver is asked about every file of every operation, and the answers are counted by directory
and in all.
-/
set_option autoImplicit false

namespace Zkvm.Inspection

inductive Mark where
  | pass
  | fail
  | timeout
  | error
deriving DecidableEq

def Mark.name : Mark → String
  | .pass => "PASS"
  | .fail => "FAIL"
  | .timeout => "TIMEOUT"
  | .error => "ERROR"

structure Entry where
  /-- The name of the directory of the file. -/
  group : String
  name : String
  mark : Mark
  remark : String

/-- The mark for an answer.  A remark is cut after one hundred characters. -/
def markOf : Answer → Mark × String
  | .timedOut _ => (.timeout, "Validation timed out")
  | .failed reason => (.error, Text.take 100 reason)
  | .ran code out err =>
    if (Answer.ran code out err).solved then (.pass, "")
    else (.fail, Text.take 100 (if err = "" then "No solution found" else Text.trim err))

def enter (path : String) : Action Entry := do
  let (mark, remark) := markOf (← Action.solve path)
  pure ⟨Path.name (Path.parent path), Path.name path, mark, remark⟩

namespace Survey

def count (mark : Mark) (entries : List Entry) : Nat :=
  entries.countP fun entry => entry.mark = mark

/-- The lines on the files of one directory: at most three failures are told in full. -/
def groupLines (name : String) (entries : List Entry) : List String :=
  let passed := count .pass entries
  let told (mark : Mark) (title : String) :=
    if count mark entries = 0 then [] else [s!"  {title}: {count mark entries}"]
  let failures := (entries.filter fun entry => entry.mark = .fail).take 3
  let share := Text.fixed 1 (Text.percent passed entries.length)
  [s!"\\n📁 {name}: {passed}/{entries.length} ({share}%)"] ++ told .fail "❌ Failures" ++
    failures.map (fun entry => s!"    FAIL: {entry.name} - {entry.remark}") ++
    told .timeout "⏰ Timeouts" ++ told .error "💥 Errors"

def judgement (rate : Float) : String :=
  let text := Text.fixed 1 rate
  if rate ≥ 90 then s!"\\n🎉 EXCELLENT! {text}% validation rate - very close to 100%!"
  else if rate ≥ 70 then s!"\\n🚀 GREAT PROGRESS! {text}% validation rate - well on track!"
  else if rate ≥ 50 then s!"\\n📈 GOOD PROGRESS! {text}% validation rate - making solid headway!"
  else s!"\\n🔧 {text}% validation rate - more work needed!"

def enterAll (total : Nat) (done : Nat) : List String → Action (List Entry)
  | [] => pure []
  | path :: rest => do
    let entry ← enter path
    if (done + 1) % 50 = 0 then
      Action.say
        s!"  Progress: {done + 1}/{total} ({Text.fixed 1 (Text.percent (done + 1) total)}%)"
    return entry :: (← enterAll total (done + 1) rest)

/-- Surveys all components; true if at least seventy percent of them pass. -/
def run : Action Bool := do
  Action.say "Validating existing system components..."
  if !(← Action.exists? Component.buildDirectory) then
    Action.say "❌ Build directory not found!"
    return false
  let files ← Action.listTree Component.buildDirectory ".tau"
  Action.say s!"Found {files.length} Tau files to validate"
  if files.isEmpty then
    Action.say "❌ No Tau files found!"
    return false
  Action.say "\\nStarting validation (this may take a few minutes)..."
  let start ← Action.now
  let entries ← enterAll files.length 0 files
  let time := (← Action.now) - start
  Action.sayAll ["\\n=== SYSTEM VALIDATION RESULTS ===",
    s!"Validation completed in {Text.fixed 1 time} seconds"]
  Action.sayAll ((Json.sortTexts (entries.map (·.group)).eraseDups).flatMap fun group =>
    groupLines group (entries.filter fun entry => entry.group = group))
  let share (mark : Mark) :=
    s!"{count mark entries} ({Text.fixed 1 (Text.percent (count mark entries) files.length)}%)"
  let rate := Text.percent (count .pass entries) files.length
  Action.sayAll ["\\n=== OVERALL SYSTEM STATUS ===", s!"📊 Total files: {files.length}",
    s!"✅ Passing: {share .pass}", s!"❌ Failing: {share .fail}", s!"⏰ Timeouts: {share .timeout}",
    s!"💥 Errors: {share .error}", judgement rate]
  return rate ≥ 70

end Survey

end Zkvm.Inspection
