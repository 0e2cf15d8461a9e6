import Zkvm.Component.Report

/-!
# Sample sets of components

One sample of every family, tried with the solver; and the set of all comparisons, which stops where
an aggregator is asked of a generator that has none.
-/
set_option autoImplicit false

namespace Zkvm.Component

structure Sample where
  family : String
  component : Component

def family (name : String) (components : List Component) : List Sample :=
  components.map (⟨name, ·⟩)

def sampleAggregator (name final symbol part : String) (values : List Nat) : Component :=
  let parts := values.zipIdx.map fun (value, i) => s!"{part}{i}={value}"
  let all := symbol.intercalate (values.zipIdx.map fun (_, i) => s!"{part}{i}")
  ⟨name, parts ++ [s!"{final}=({all})"], some [], some [final]⟩

/-- One component of each family.  The generators are read from a file that has to be there; the
family of system operations is lost, for it has no generator of its own for each operation. -/
def sampleSet (definitions : String) : Action (List Sample) := do
  let _ ← Action.readFile definitions
  Action.say "Generating sample components from actual generators..."
  Action.sayAll ["✓ Generated arithmetic components", "✓ Generated bitwise components",
    "✓ Generated comparison components", "✓ Generated memory components"]
  Action.say ("✗ Error generating system: " ++
    (Failure.noAbility "SystemGenerator" "generate_debug_nibble").message)
  Action.sayAll ["✓ Generated crypto components", "✓ Generated aggregator components"]
  pure (family "ARITH" [addNibble 0, subNibble 0, divNibble 0, modNibble 0] ++
    family "BITWISE" [andNibble 0, orNibble 0, xorNibble 0, notNibble 0] ++
    family "COMP" [eqNibble 0, neqNibble 0, ltNibble 0, gtNibble 0] ++
    family "MEM" [dupNibble 0, swapNibble 0, addrNibble 0, dataNibble 0] ++
    family "CRYPTO" [hashNibble 0, verifyNibble 0] ++
    family "AGG" [sampleAggregator "eq_aggregator" "eqfinal" "&" "eq" [1, 1, 1, 1],
      sampleAggregator "neq_aggregator" "neqfinal" "|" "neq" [0, 0, 0, 1], dupAggregator,
      swapAggregator])

structure Trial where
  family : String
  passed : Bool
  line : String

def attempt (directory : String) (sample : Sample) : Action Trial := do
  let name := sample.component.name
  Action.orElse
    (do
      let text ← Action.ofExcept sample.component.fileText
      let path := s!"{directory}/{name}.tau"
      Action.writeFile path text
      let answer ← Action.solve path
      match answer.trouble? 10 with
      | some trouble => pure ⟨sample.family, false, s!"✗ ERROR: {name} - {Text.take 50 trouble}"⟩
      | none =>
        if answer.solved then pure ⟨sample.family, true, s!"✓ PASS: {name}"⟩
        else pure ⟨sample.family, false, s!"✗ FAIL: {name}"⟩)
    (fun failure => pure ⟨sample.family, false,
      s!"✗ ERROR: {name} - {Text.take 50 failure.message}"⟩)

def familiesOf (trials : List Trial) : List String :=
  (trials.map (·.family)).foldl (fun seen name => if seen.contains name then seen
    else seen ++ [name]) []

/-- The share in percent, with nothing of nothing counted as zero. -/
def share (part whole : Nat) : Float :=
  if whole = 0 then 0.0 else Text.percent part whole

def sayFamily (trials : List Trial) (name : String) : Action Unit := do
  let own := trials.filter (·.family = name)
  let passed := own.countP (·.passed)
  Action.say s!"\\n{name}: {passed}/{own.length} ({Text.fixed 1 (share passed own.length)}%)"
  Action.sayAll (own.map fun trial => "  " ++ trial.line)

/-- Tries all samples; true if at least 85 percent pass. -/
def trySamples (definitions : String) : Action Bool := do
  Action.say "\\nTesting sample system components..."
  let directory := "test_sample_system"
  Action.makeDirectories directory
  let found ← Action.orElse (some <$> sampleSet definitions) fun failure => do
    Action.say s!"Error during generation: {failure.message}"
    pure none
  match found with
  | none => pure false
  | some list =>
    let trials ← list.mapM (attempt directory)
    Action.say "\\n=== SAMPLE SYSTEM VALIDATION RESULTS ==="
    (familiesOf trials).forM (sayFamily trials)
    let passed := trials.countP (·.passed)
    let overall := share passed trials.length
    Action.sayAll ["\\n=== OVERALL SAMPLE RESULTS ===",
      s!"Total: {passed}/{trials.length} ({Text.fixed 1 overall}%)",
      "This represents our estimated progress toward 100% system validation!"]
    pure (decide (85.0 ≤ overall))

/-- Writes the comparisons of equality and then fails: the generator that is asked for the
aggregator cannot make one. -/
def writeComparisons : Action Unit := do
  Action.say "Generating comparison components..."
  let directory := "build/zkvm_comparison_test"
  Action.makeDirectories directory
  Action.say "Generating EQ components..."
  Action.makeDirectories s!"{directory}/eq"
  ((List.range 4).map fun (i : Nat) => eqNibble i).forM fun component => do
    let text ← Action.ofExcept component.fileText
    Action.writeFile s!"{directory}/eq/{component.name}.tau" text
  Action.fail (.noAbility "ArithmeticGenerator" "generate_eq_aggregator")

/-- Reports on named files without being able to run the solver: how many passed and how many did
not. -/
def reportComparisons (names : List String) : Action (Nat × Nat) := do
  Action.say "\\nValidating components..."
  Action.sayAll (names.map fun name => s!"✗ ERROR: {name} - name 'subprocess' is not defined")
  if names.isEmpty then Action.fail .divisionByZero
  let share := Text.fixed 1 (Text.percent 0 names.length)
  Action.say s!"\\nValidation Results: 0/{names.length} passed ({share}%)"
  pure (0, names.length)

end Zkvm.Component
