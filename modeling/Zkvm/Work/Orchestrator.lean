import Zkvm.Work.Product

/-!
# Orchestrating jobs

An orchestrator has a job done when those it depends on have succeeded, keeps what became of all
jobs, and sums it up in a manifest and in print.
-/
set_option autoImplicit false

namespace Zkvm.Work

structure Orchestrator where
  style : Style
  directory : String := ""
  /-- The modules that have a maker. -/
  makers : List String := []
  /-- What became of the jobs so far, by name. -/
  outcomes : List (String × Outcome) := []

namespace Orchestrator

/-- A new orchestrator with a maker for every module.  The maker of folding circuits takes no
directory, so that there is none. -/
def assemble : Except Failure Orchestrator :=
  .error (.tooManyInputs "FoldingGenerator.__init__()" 1 2)

def ready (o : Orchestrator) (names : List String) : Bool :=
  names.all fun name => ((o.outcomes.lookup name).map (·.success)).getD false

/-- Sleeps in short steps until the time is over, for at most so many steps. -/
def sleepBeyond (start timeout : Float) : Nat → Action Unit
  | 0 => pure ()
  | steps + 1 => do
    if (← Action.now) - start > timeout then pure ()
    else
      Action.sleep 0.1
      sleepBeyond start timeout steps

/-- Waits for jobs, and says whether they are ready.  What is not ready at first is not ready later
either, because nothing else goes on. -/
def wait (o : Orchestrator) (names : List String) (timeout : Float) : Action Bool := do
  if o.ready names then pure true
  else
    sleepBeyond (← Action.now) timeout (timeout * 11.0 + 20.0).toUInt64.toNat
    pure false

def perform (o : Orchestrator) (job : Job) : Except Failure Yield :=
  if o.makers.contains job.maker then do
    let product ← Product.make job.maker job.operations
    o.style.yield product
  else .error (.missingKey job.maker)

/-- Waits for what a job depends on; in the timed style this is told, and it comes before all
else. -/
def prepare (o : Orchestrator) (job : Job) : Action Unit := do
  if !job.dependencies.isEmpty then
    if o.style = .timed then
      Action.say s!"[{job.name}] Waiting for dependencies: {Text.quotedList job.dependencies}"
    else if !o.makers.contains job.maker then Action.fail (.missingKey job.maker)
    if !(← o.wait job.dependencies 300.0) then Action.fail .waitedTooLong

def failureLine (style : Style) (name time message : String) : String :=
  match style with
  | .plain => s!"[{name}] Failed: {message}"
  | .timed => s!"[{name}] Failed after {time}s: {message}"

/-- Has a job done.  A failure is part of what became of it. -/
def execute (o : Orchestrator) (job : Job) : Action Outcome := do
  Action.say s!"[{job.name}] Starting generation..."
  let start ← Action.now
  Action.orElse
    (do
      o.prepare job
      let yield ← Action.ofExcept (o.perform job)
      let time := (← Action.now) - start
      Action.say s!"[{job.name}] Completed in {Text.fixed 2 time}s - {yield.components} components"
      pure { yield with name := job.name, success := true, time := .double time })
    (fun failure => do
      let time := (← Action.now) - start
      Action.say (failureLine o.style job.name (Text.fixed 2 time) failure.message)
      pure { name := job.name, success := false, error := some failure.message,
             time := .double time })

def totalComponents (o : Orchestrator) : Int :=
  o.outcomes.foldl (fun sum (_, outcome) => sum + outcome.components) 0

def totalFiles (o : Orchestrator) : Nat :=
  (o.outcomes.map fun (_, outcome) => outcome.files.length).foldr (· + ·) 0

def totalTime (o : Orchestrator) : Except Failure Number :=
  Number.sum (o.outcomes.map fun (_, outcome) => outcome.time)

/-- The contracts of all jobs that succeeded; a later one of the same name takes the place of the
earlier. -/
def contracts (o : Orchestrator) : List (String × Json) :=
  (o.outcomes.filter fun (_, outcome) => outcome.success).foldl
    (fun all (_, outcome) => outcome.contracts.foldl
      (fun all (name, value) => Json.put name value all) all) []

def moduleJson (style : Style) (outcome : Outcome) : Json :=
  let time := if style = .timed then [("execution_time", outcome.time.json)] else []
  if outcome.success then
    .obj ([("components", .int outcome.components), ("files", .texts outcome.files)] ++ time ++
      [("status", .str "success")])
  else .obj ([("status", .str "failed"), ("error", .optional .str outcome.error)] ++ time)

def listed (key : String) : Json → Except Failure (List String)
  | .obj fields => (((Json.obj fields).get? key).getD (.arr [])).iterateValues.map fun items =>
    items.map Json.compact
  | other => .error (.noAbility other.kindName "get")

/-- Whether one contract gives something that another takes. -/
def composable (first second : Json) : Except Failure Bool := do
  let given ← listed "outputs" first
  let taken ← listed "inputs" second
  pure (given.any taken.contains)

def edge (first second : Json) (kind : String) : Json :=
  .obj [("from", first), ("to", second), ("type", .str kind)]

def edgesFrom (first : Json) (rest : List Json) : Except Failure (List Json) := do
  let found ← rest.filterM (composable first)
  let name (contract : Json) := (contract.get? "name").getD (.str "unknown")
  pure (found.map fun second => edge (name first) (name second) "assume-guarantee")

def composedEdges : List Json → Except Failure (List Json)
  | [] => pure []
  | first :: rest => return (← edgesFrom first rest) ++ (← composedEdges rest)

/-- Each contract with the next one, for at most fifty. -/
def sequentialEdges (names : List String) : List Json :=
  ((names.zip (names.drop 1)).take 50).map fun (first, second) =>
    edge (.str first) (.str second) "sequential"

/-- In the plain style the edges join contracts that fit; in the timed style they follow the
order. -/
def edges (o : Orchestrator) : Except Failure (List Json) :=
  match o.style with
  | .plain => composedEdges (o.contracts.flatMap fun (_, value) => value.toItems)
  | .timed => .ok (sequentialEdges (o.contracts.map (·.1)))

def manifest (o : Orchestrator) : Except Failure Json := do
  let time : List (String × Json) ←
    if o.style = .plain then pure [] else do pure [("total_execution_time", (← o.totalTime).json)]
  let edges ← o.edges
  pure (.obj ([("version", .str "1.0.0"), ("timestamp", .str "TIMESTAMP"),
      ("total_components", .int o.totalComponents), ("total_files", .nat o.totalFiles)] ++ time ++
    [("modules", .obj (o.outcomes.map fun (name, outcome) => (name, moduleJson o.style outcome))),
      ("contracts", .obj o.contracts), ("composition_graph", .arr edges),
      ("validation_status", .obj [])]))

def saveManifest (o : Orchestrator) : Action Unit := do
  let manifest ← Action.ofExcept o.manifest
  Action.writeFile (Path.join o.directory "manifest.json") manifest.pretty

def failedLines (o : Orchestrator) : List String :=
  let failed := o.outcomes.filter fun (_, outcome) => !outcome.success
  if failed.isEmpty then []
  else "\nFailed tasks:" :: failed.map fun (name, outcome) => s!"  - {name}: {outcome.errorText}"

def productive (o : Orchestrator) : List (String × Outcome) :=
  (o.outcomes.mergeSort fun a b => decide (b.2.components ≤ a.2.components)).filter
    fun (_, outcome) => outcome.success

/-- Prints the sums.  The timed style also prints times; it needs at least one job for their
mean. -/
def sayTotals (o : Orchestrator) : Action Unit := do
  let completed := o.outcomes.countP fun (_, outcome) => outcome.success
  Action.say "\n=== Execution Summary ==="
  match o.style with
  | .plain => Action.sayAll [s!"Tasks completed: {completed}/{o.outcomes.length}",
      s!"Total components: {o.totalComponents}", s!"Total files: {o.totalFiles}"]
  | .timed =>
    let total ← Action.ofExcept o.totalTime
    Action.sayAll [s!"Tasks completed: {completed}/{o.outcomes.length}",
      s!"Total components: {Text.groupedInt o.totalComponents}",
      s!"Total files: {Text.grouped o.totalFiles}"]
    let totalText ← Action.ofExcept (total.fixed 2)
    Action.say s!"Total execution time: {totalText}s"
    let mean ← Action.ofExcept (total.dividedBy o.outcomes.length)
    Action.say s!"Average time per task: {Text.fixed 2 mean}s"

def sayProduct (name : String) (outcome : Outcome) : Action Unit := do
  let time ← Action.ofExcept outcome.timeText
  Action.say s!"  {name}: {outcome.components} components in {time}s"

def saySummary (o : Orchestrator) : Action Unit := do
  o.sayTotals
  Action.sayAll o.failedLines
  if o.style = .timed then
    Action.say "\nModule Breakdown:"
    o.productive.forM fun (name, outcome) => sayProduct name outcome
  Action.say s!"\nManifest saved to {o.directory}/manifest.json"

end Orchestrator

end Zkvm.Work
