import Zkvm.Machine.Validator
import Zkvm.Proofs.Machine.History

/-!
# Refusals depend on the operation alone

The values of an operation are handed down to every check, cut into nibbles where the operation
works on words, but no check ever looks at them: the solver is asked about a file and told nothing
else.  So under fixed files and a fixed solver an operation is refused always or never, and the
refusals that a machine records are those entries of its trace whose operation is refused.
-/
set_option autoImplicit false

namespace Zkvm.Machine

namespace ConstraintSource
variable (source : ConstraintSource)

theorem checkFile_values (path : String) (inputs outputs : List Int) (nibble : Option Nat) :
    source.checkFile path inputs outputs nibble = source.checkFile path [] [] nibble := by
  rw [checkFile, checkFile]

theorem checkFiles_values (inputs outputs : List Int) (files : List (String × Option Nat)) :
    source.checkFiles inputs outputs files = source.checkFiles [] [] files := by
  induction files with
  | nil => rw [checkFiles, checkFiles]
  | cons file rest ih =>
      obtain ⟨path, nibble⟩ := file
      rw [checkFiles, checkFiles, source.checkFile_values path inputs outputs nibble, ih]

theorem checkWord_values (folder : String) (opcode : Opcode) (inputs outputs : List Int) :
    source.checkWord folder opcode inputs outputs = source.checkWord folder opcode [] [] := by
  rw [checkWord, checkWord, source.checkFiles_values (inputs.flatMap nibbles)]
  rw [source.checkFiles_values (List.flatMap nibbles [])]

theorem checkFirst_values (folder : String) (opcode : Opcode) (inputs outputs : List Int) :
    source.checkFirst folder opcode inputs outputs = source.checkFirst folder opcode [] [] := by
  unfold checkFirst
  split
  · rfl
  · rw [source.checkFile_values _ inputs outputs none]

theorem validate_values (opcode : Opcode) (inputs outputs : List Int) :
    source.validate opcode inputs outputs = source.validate opcode [] [] := by
  rw [validate, validate, source.checkWord_values _ opcode inputs outputs,
    source.checkFirst_values _ opcode inputs outputs]

def refuses (opcode : Opcode) : Bool :=
  !(source.judge opcode [] []).accepted

/-- An operation is refused if the checks of its files, on whatever values, end in a refusal; where
they come to no verdict it is not. -/
theorem refuses_iff (opcode : Opcode) (inputs outputs : List Int) :
    source.refuses opcode = true ↔ ∃ warnings,
      source.validate opcode inputs outputs = .ok (false, warnings) := by
  rw [source.validate_values opcode inputs outputs]
  unfold refuses judge
  cases source.validate opcode [] [] with
  | error cause => simp
  | ok verdict =>
      obtain ⟨accepted, warnings⟩ := verdict
      cases accepted <;> simp

end ConstraintSource

/-- The refusal of an entry's operation, as it is recorded: without any values. -/
def TraceEntry.refusal (entry : TraceEntry) : Violation :=
  { cycle := entry.cycle, opcode := entry.command.opcode, inputs := [], outputs := [] }

/-- The refusals that are due after these entries: one for each entry with a refused operation. -/
def ConstraintSource.refusals (source : ConstraintSource) (entries : List TraceEntry) :
    List Violation :=
  (entries.filter fun entry => source.refuses entry.command.opcode).map TraceEntry.refusal

theorem refusals_append (source : ConstraintSource) (entries more : List TraceEntry) :
    source.refusals (entries ++ more) = source.refusals entries ++ source.refusals more := by
  rw [ConstraintSource.refusals, List.filter_append, List.map_append]
  rfl

theorem examine_some (judge : Opcode → List Int → List Int → Verdict) (opcode : Opcode)
    (inputs outputs : List Int) :
    Inspector.examine (some judge) opcode inputs outputs = judge opcode inputs outputs :=
  rfl

theorem recorded_refusals (source : ConstraintSource) (m : Machine) (command : Command)
    (next : State) (said : List String)
    (due : m.violations.toList = source.refusals m.trace.toList) :
    (recorded (some source.judge) m command next said).violations.toList =
      source.refusals (recorded (some source.judge) m command next said).trace.toList := by
  have verdict : source.refuses command.opcode =
      !(Inspector.examine (some source.judge) command.opcode [] []).accepted := by
    rw [examine_some, ConstraintSource.refuses]
  simp only [recorded, Array.toList_push, refusals_append]
  by_cases accepted : (Inspector.examine (some source.judge) command.opcode [] []).accepted = true
  · rw [accepted, Bool.not_true] at verdict
    rw [if_pos accepted, due]
    simp [ConstraintSource.refusals, verdict]
  · rw [Bool.not_eq_true] at accepted
    rw [accepted, Bool.not_false] at verdict
    rw [accepted, if_neg Bool.false_ne_true, Array.toList_push, due]
    simp [ConstraintSource.refusals, verdict, TraceEntry.refusal]

theorem violations_eq_refusals (source : ConstraintSource) (ambient : Ambient)
    (script : List ScriptStep) :
    (afterAll ambient (some source.judge) {} script).violations.toList =
      source.refusals (afterAll ambient (some source.judge) {} script).trace.toList := by
  have lasting : Lasting ambient (some source.judge)
      fun _ m => m.violations.toList = source.refusals m.trace.toList := by
    refine ⟨?_, fun _ due => due, fun _ due => due, fun _ due => due⟩
    intro past m command next said _ due
    exact recorded_refusals source m command next said due
  exact lasting.fresh script rfl

theorem refusals_eq_filter (source : ConstraintSource) (entries : List TraceEntry) :
    source.refusals entries = (entries.map TraceEntry.refusal).filter fun refusal =>
      source.refuses refusal.opcode := by
  simp only [ConstraintSource.refusals, List.filter_map, Function.comp_def, TraceEntry.refusal]

/-- With one entry a cycle, the refusals of all entries are told by their operations in order. -/
theorem refusals_of_numbered {entries : List TraceEntry}
    (numbered : ∀ (k : Nat) (entry : TraceEntry), entries[k]? = some entry → entry.cycle = k) :
    entries.map TraceEntry.refusal =
      (entries.map fun entry => entry.command.opcode).zipIdx.map fun (opcode, cycle) =>
        { cycle, opcode } := by
  apply List.ext_getElem?
  intro k
  rw [List.getElem?_map, List.getElem?_map, List.getElem?_zipIdx, List.getElem?_map]
  cases atK : entries[k]? with
  | none => rfl
  | some entry => simp [TraceEntry.refusal, numbered k entry atK]

/-- The refusals that a machine records, from the operations in its trace. -/
theorem violations_of_operations (source : ConstraintSource) (ambient : Ambient)
    (script : List ScriptStep) :
    let final := afterAll ambient (some source.judge) {} script
    final.violations.toList =
      ((final.trace.toList.map fun entry => entry.command.opcode).zipIdx.map
        fun (opcode, cycle) => ({ cycle, opcode } : Violation)).filter fun refusal =>
          source.refuses refusal.opcode := by
  intro final
  -- entries are numbered by their cycles, so that an operation's place tells the cycle of its
  -- refusal
  have counted := counted_afterAll ambient (some source.judge) script counted_fresh
  have numbered :
      ∀ (k : Nat) (entry : TraceEntry), final.trace.toList[k]? = some entry → entry.cycle = k := by
    intro k entry atK
    rw [Array.getElem?_toList] at atK
    exact (counted.entries k entry atK).1
  rw [← refusals_of_numbered numbered, ← refusals_eq_filter]
  exact violations_eq_refusals source ambient script

/-- The refusals that are recorded depend on the operations alone.  For any constraint files and any
solver there is a set of bad operations: those whose checks end in a refusal, on whatever values.
After any script of loads, inputs and runs on a fresh machine, the recorded refusals are those of
the trace's entries whose operation is bad, in order, each with its cycle and without values.  So
two machines that have executed the same operations, on whatever operands, have recorded the same
refusals. -/
theorem violations_by_operation (source : ConstraintSource) :
    ∃ bad : Opcode → Bool,
      (∀ opcode inputs outputs,
        bad opcode = true ↔ ∃ warnings,
          source.validate opcode inputs outputs = .ok (false, warnings)) ∧
      (∀ (ambient : Ambient) (script : List ScriptStep),
        let final := afterAll ambient (some source.judge) {} script
        final.violations.toList =
          (final.trace.toList.filter fun entry => bad entry.command.opcode).map fun entry =>
            { cycle := entry.cycle, opcode := entry.command.opcode, inputs := [], outputs := [] }) ∧
      ∀ (first second : Ambient) (script other : List ScriptStep),
        let left := afterAll first (some source.judge) {} script
        let right := afterAll second (some source.judge) {} other
        left.trace.toList.map (fun entry => entry.command.opcode) =
          right.trace.toList.map (fun entry => entry.command.opcode) →
        left.violations = right.violations := by
  refine ⟨source.refuses, source.refuses_iff, violations_eq_refusals source, ?_⟩
  intro first second script other left right same
  have leftRefusals := violations_of_operations source first script
  have rightRefusals := violations_of_operations source second other
  apply Array.toList_inj.mp
  calc left.violations.toList = _ := leftRefusals
    _ = _ := by rw [same]
    _ = right.violations.toList := rightRefusals.symm

/-- A solver that finds no solution in the file of `push`: two programs that push different values
are refused alike, at each push. -/
theorem violations_by_operation_pushes :
    let ambient : Ambient := ⟨fun _ => 0, fun _ => 0, fun _ => 0⟩
    let source : ConstraintSource :=
      { tree := ⟨[(["compiler"], .directory), (["compiler", "build"], .directory),
          (["compiler", "build", "zkvm_100_percent"], .directory),
          (["compiler", "build", "zkvm_100_percent", "push"], .directory),
          (["compiler", "build", "zkvm_100_percent", "push", "p.tau"], .file "solve x=1")]⟩
        directory := ["runtime"]
        solver := [("*", .ran 0 "no model" "")] }
    let left :=
      afterAll ambient (some source.judge) {}
        [.load [("push", [1]), ("push", [2])], .execute 10 true]
    let right :=
      afterAll ambient (some source.judge) {}
        [.load [("push", [-7]), ("PUSH", [0])], .execute 10 true]
    left.trace.toList.map (fun entry => entry.command.opcode) =
        right.trace.toList.map (fun entry => entry.command.opcode) ∧
      left.violations.size = 2 ∧ left.violations = right.violations := by
  intro ambient source left right
  have opcodes : left.trace.toList.map (fun entry => entry.command.opcode) =
      right.trace.toList.map (fun entry => entry.command.opcode) := by decide +kernel
  obtain ⟨bad, _, _, alike⟩ := violations_by_operation source
  exact ⟨opcodes, by decide +kernel, alike ambient ambient _ _ opcodes⟩

end Zkvm.Machine
