import Zkvm.Machine.Validator
import Zkvm.Proofs.Machine.Ambient
import Zkvm.Proofs.Machine.History
import Zkvm.Proofs.Machine.Stepped

/-!
# Inspection does not interfere

A machine whose commands are judged by constraint files and one that is not judged at all go through
the same states, whatever files there are and whatever the solver does with them: ends with any
code, says anything, takes too long, cannot be started.  All the trouble of an inspection ends in a
refusal that is recorded or in a warning that is printed.  The two runs are compared turn by turn;
what they have in common is `Alike`.
-/
set_option autoImplicit false

namespace Zkvm.Machine

/-! ## Warnings -/

def isWarning (line : String) : Bool :=
  Text.hasPrefix "Warning: " line

theorem isWarning_append {mark : String} (warns : isWarning mark = true) (rest : String) :
    isWarning (mark ++ rest) = true := by
  unfold isWarning Text.hasPrefix at *
  rw [List.isPrefixOf_iff_prefix] at *
  rw [String.toList_append]
  exact warns.trans (List.prefix_append _ _)

theorem isWarning_own {line : String} (own : Own line) : isWarning line = false := by
  obtain ⟨mark, member, rest, rfl⟩ := own
  simp only [ownMarks, List.mem_cons, List.not_mem_nil, or_false] at member
  unfold isWarning Text.hasPrefix
  rw [String.toList_append]
  rcases member with rfl | rfl | rfl <;> rfl

namespace ConstraintSource
variable (source : ConstraintSource)

theorem checkFile_warnings (path : String) (inputs outputs : List Int) (nibble : Option Nat) :
    ∀ line ∈ (source.checkFile path inputs outputs nibble).2, isWarning line = true := by
  intro line member
  unfold checkFile at member
  cases trouble : (source.solver.answer path).trouble? 10 with
  | none => simp [trouble] at member
  | some reason =>
      simp only [trouble, List.mem_singleton] at member
      rw [member, String.append_assoc, String.append_assoc]
      exact isWarning_append (by decide) _

theorem checkFiles_warnings (inputs outputs : List Int) (files : List (String × Option Nat)) :
    ∀ line ∈ (source.checkFiles inputs outputs files).2, isWarning line = true := by
  induction files with
  | nil =>
      intro line member
      cases member
  | cons file rest ih =>
      obtain ⟨path, nibble⟩ := file
      have here := source.checkFile_warnings path inputs outputs nibble
      intro line member
      unfold checkFiles at member
      cases checked : source.checkFile path inputs outputs nibble with
      | mk accepted warnings =>
          rw [checked] at here member
          cases accepted with
          | false => exact here line member
          | true =>
              rcases List.mem_append.mp member with inHere | inRest
              · exact here line inHere
              · exact ih line inRest

theorem validate_warnings {opcode : Opcode} {inputs outputs : List Int}
    {verdict : Bool × List String}
    (validated : source.validate opcode inputs outputs = .ok verdict) :
    ∀ line ∈ verdict.2, isWarning line = true := by
  unfold validate at validated
  split at validated
  · cases validated
  · split at validated
    · rw [← Except.ok.inj validated, checkWord]
      exact source.checkFiles_warnings _ _ _
    · unfold checkFirst at validated
      split at validated
      · cases validated
      · next path others files =>
          rw [← Except.ok.inj validated]
          exact source.checkFile_warnings path inputs outputs none

/-- All that an inspection prints are warnings, also where it comes to no verdict. -/
theorem judge_warnings (opcode : Opcode) (inputs outputs : List Int) :
    ∀ line ∈ (source.judge opcode inputs outputs).warnings, isWarning line = true := by
  unfold judge
  split
  · next accepted warnings validated => exact source.validate_warnings validated
  · intro line member
    rw [List.mem_singleton.mp member]
    exact isWarning_append (by decide) _

end ConstraintSource

/-! ## Two machines, one of them inspected -/

def withoutWarnings (lines : List String) : List String :=
  lines.filter fun line => !isWarning line

theorem withoutWarnings_append (lines more : List String) :
    withoutWarnings (lines ++ more) = withoutWarnings lines ++ withoutWarnings more :=
  List.filter_append lines more

theorem withoutWarnings_own {lines : List String} (own : ∀ line ∈ lines, Own line) :
    withoutWarnings lines = lines := by
  apply List.filter_eq_self.mpr
  intro line member
  rw [isWarning_own (own line member), Bool.not_false]

theorem withoutWarnings_warnings {lines : List String}
    (warns : ∀ line ∈ lines, isWarning line = true) :
    withoutWarnings lines = [] := by
  apply List.filter_eq_nil_iff.mpr
  intro line member
  simp [warns line member]

/-- The inspected machine differs from the other one at most in refusals and warnings. -/
structure Alike (checked plain : Machine) : Prop where
  state : checked.state = plain.state
  trace : checked.trace = plain.trace
  said : withoutWarnings checked.said.toList = plain.said.toList
  selfContained : SelfContained plain.state.program

variable (first second : Ambient) (source : ConstraintSource)

theorem alike_turned {checked plain next : Machine} {stop : Option Stop}
    (alike : Alike checked plain) (turned : Turned second none plain next stop) :
    ∃ reached, Turned first (some source.judge) checked reached stop ∧ Alike reached next := by
  have program := program_turned second none turned
  obtain ⟨state, trace, violations, said⟩ := checked
  obtain ⟨sameState, sameTrace, sameSaid, selfContained⟩ := alike
  simp only at sameState sameTrace sameSaid
  subst sameState sameTrace
  cases turned with
  | halted halt => exact ⟨_, .halted halt, rfl, rfl, sameSaid, selfContained⟩
  | ended running past => exact ⟨_, .ended running past, rfl, rfl, sameSaid, selfContained⟩
  | unfetched fault running inside missed =>
      exact ⟨_, .unfetched fault running inside missed, rfl, rfl, sameSaid, selfContained⟩
  | failed command left fault running inside fetched stepped =>
      rw [step_of_fetch second first selfContained fetched] at stepped
      refine ⟨_, .failed command left fault running inside fetched stepped, rfl, rfl, sameSaid, ?_⟩
      rw [program]
      exact selfContained
  | went command next lines running inside fetched done =>
      have own := own_stepped (stepped done)
      rw [step_of_fetch second first selfContained fetched] at done
      refine ⟨_, .went command next lines running inside fetched done, rfl, rfl, ?_, ?_⟩
      · -- an inspection adds nothing but warnings, and no line of the machine itself is one
        have warned := withoutWarnings_warnings (source.judge_warnings command.opcode [] [])
        simp only [recorded, Inspector.examine, Array.toList_appendList, withoutWarnings_append,
          sameSaid, withoutWarnings_own own, warned]
      · rw [program]
        exact selfContained

/-- Runs over the same budget leave the machines alike, stop for the same reason and have the same
events. -/
theorem alike_runFor (budget : Nat) {checked plain : Machine} (alike : Alike checked plain) :
    Alike (runFor first (some source.judge) budget checked).1 (runFor second none budget plain).1 ∧
      (runFor first (some source.judge) budget checked).2 = (runFor second none budget plain).2 ∧
      eventsFor first (some source.judge) budget checked = eventsFor second none budget plain := by
  induction budget generalizing checked plain with
  | zero =>
      rw [runFor_zero, runFor_zero, alike.state]
      exact ⟨alike, rfl, rfl⟩
  | succ budget ih =>
      cases result : turn second none plain with
      | mk next stop =>
          obtain ⟨reached, turned, alikeNext⟩ :=
            alike_turned first second source alike (turned_of_turn second none result)
          have checkedResult := turn_of_turned first (some source.judge) turned
          rw [runFor_succ, runFor_succ, checkedResult, result]
          cases stop with
          | some stop =>
              rw [eventsFor_stopped first (some source.judge) budget checkedResult,
                eventsFor_stopped second none budget result]
              exact ⟨alikeNext, rfl, rfl⟩
          | none =>
              obtain ⟨alikeEnd, sameStop, sameEvents⟩ := ih alikeNext
              refine ⟨alikeEnd, sameStop, ?_⟩
              -- alike machines fetch the same command, with the same states around it
              simp only [eventsFor, checkedResult, result, alike.state]
              cases fetch plain.state.program plain.state.counter with
              | error fault => rfl
              | ok command => simp only [alikeNext.state, sameEvents]

/-! ## Scripts -/

/-- The step loads no program that asks the outside for anything. -/
def ScriptStep.SelfContained : ScriptStep → Prop
  | .load source => ∀ program ∈ (parse source).toOption, Machine.SelfContained program
  | _ => True

instance (step : ScriptStep) : Decidable step.SelfContained :=
  match step with
  | .load source =>
    inferInstanceAs (Decidable (∀ program ∈ (parse source).toOption, Machine.SelfContained program))
  | .feed _ | .execute _ _ | .advance _ _ | .peek _ | .dump => inferInstanceAs (Decidable True)

/-- An answer without what an inspection has recorded. -/
def withoutVerdicts (fields : List (String × Json)) : List (String × Json) :=
  fields.filter fun (key, _) => key != "constraint_violations" && key != "violations"

theorem report_alike {checked plain : Machine} (alike : Alike checked plain) (stop : Stop)
    (whole : Bool) :
    withoutVerdicts ((checked.report stop).fields whole) =
      withoutVerdicts ((plain.report stop).fields whole) := by
  cases stop with
  | failed fault => rw [report, report, alike.state]
  | halted | limit | ended =>
      cases whole <;> simp [report, Report.fields, withoutVerdicts, alike.state, alike.trace]

theorem dump_alike {checked plain : Machine} (alike : Alike checked plain) :
    withoutVerdicts checked.dump = withoutVerdicts plain.dump := by
  simp [dump, withoutVerdicts, alike.state, alike.trace]

theorem alike_runReported {checked plain : Machine} (alike : Alike checked plain) (limit : Int)
    (whole : Bool) :
    Alike (checked.runReported first (some source.judge) limit whole).2
        (plain.runReported second none limit whole).2 ∧
      withoutVerdicts (checked.runReported first (some source.judge) limit whole).1 =
        withoutVerdicts (plain.runReported second none limit whole).1 := by
  obtain ⟨alikeEnd, sameStop, _⟩ :=
    alike_runFor first second source (limit - plain.state.cycles).toNat alike
  simp only [runReported, run, alike.state, sameStop]
  exact ⟨alikeEnd, report_alike alikeEnd _ whole⟩

theorem alike_loaded {checked plain : Machine} (alike : Alike checked plain)
    {program : List Command} (selfContained : SelfContained program) :
    Alike { checked with state := { checked.state with program, counter := 0, halted := false } }
      { plain with state := { plain.state with program, counter := 0, halted := false } } :=
  ⟨by rw [alike.state], alike.trace, alike.said, selfContained⟩

theorem alike_perform {checked plain : Machine} (alike : Alike checked plain) (step : ScriptStep)
    (selfContained : step.SelfContained) :
    Alike (checked.after first (some source.judge) step) (plain.after second none step) ∧
      (checked.perform first (some source.judge) step).map
        (fun answer => withoutVerdicts answer.1) =
        (plain.perform second none step).map (fun answer => withoutVerdicts answer.1) := by
  cases step with
  | load text =>
      simp only [after, perform, load?]
      cases parsed : parse text with
      | error unknown => exact ⟨alike, rfl⟩
      | ok program =>
          have loaded : SelfContained program := selfContained program (by rw [parsed]; rfl)
          exact ⟨alike_loaded alike loaded, rfl⟩
  | feed values =>
      exact ⟨⟨by simp only [after, perform, feed, alike.state], alike.trace, alike.said,
        alike.selfContained⟩, rfl⟩
  | execute limit whole =>
      obtain ⟨alikeEnd, sameAnswer⟩ := alike_runReported first second source alike limit whole
      exact ⟨alikeEnd, congrArg Except.ok sameAnswer⟩
  | advance cycles whole =>
      obtain ⟨alikeEnd, sameAnswer⟩ :=
        alike_runReported first second source alike (plain.state.cycles + cycles) whole
      simp only [after, perform, alike.state]
      exact ⟨alikeEnd, congrArg Except.ok sameAnswer⟩
  | peek addresses =>
      simp only [after, perform, alike.state]
      cases addresses.mapM fun address => (place .read address).map fun i =>
        Json.int (plain.state.memory.get i) with
      | error cause => exact ⟨alike, rfl⟩
      | ok found => exact ⟨alike, rfl⟩
  | dump => exact ⟨alike, congrArg Except.ok (dump_alike alike)⟩

theorem eventsOf_alike {checked plain : Machine} (alike : Alike checked plain) (step : ScriptStep) :
    checked.eventsOf first (some source.judge) step = plain.eventsOf second none step := by
  have sameLimit : step.limit? checked = step.limit? plain := by
    cases step <;> simp only [ScriptStep.limit?, alike.state]
  simp only [eventsOf, sameLimit]
  cases step.limit? plain with
  | none => rfl
  | some limit =>
      simp only [alike.state]
      exact (alike_runFor first second source _ alike).2.2

/-- The answers to a script are the answer to its first step and those to the rest, from where it
leads. -/
theorem performAll_answers (ambient : Ambient) (inspector : Inspector) (m : Machine)
    (step : ScriptStep) (rest : List ScriptStep) :
    (performAll ambient inspector m (step :: rest)).map
      (fun answer => answer.1.map withoutVerdicts) =
      (m.perform ambient inspector step).map (fun answer => withoutVerdicts answer.1) ::
        (performAll ambient inspector (m.after ambient inspector step) rest).map
          fun answer => answer.1.map withoutVerdicts := by
  simp only [performAll, after]
  cases m.perform ambient inspector step with
  | error refusal => rfl
  | ok answer => rfl

theorem alike_script (script : List ScriptStep) {checked plain : Machine}
    (alike : Alike checked plain) (selfContained : ∀ step ∈ script, step.SelfContained) :
    Alike (afterAll first (some source.judge) checked script) (afterAll second none plain script) ∧
      history first (some source.judge) checked script = history second none plain script ∧
      (performAll first (some source.judge) checked script).map
        (fun answer => answer.1.map withoutVerdicts) =
        (performAll second none plain script).map fun answer => answer.1.map withoutVerdicts := by
  induction script generalizing checked plain with
  | nil => exact ⟨alike, rfl, rfl⟩
  | cons step rest ih =>
      obtain ⟨alikeNext, sameAnswer⟩ :=
        alike_perform first second source alike step (selfContained step List.mem_cons_self)
      obtain ⟨alikeEnd, sameHistory, sameAnswers⟩ :=
        ih alikeNext fun later member => selfContained later (List.mem_cons_of_mem step member)
      refine ⟨alikeEnd, ?_, ?_⟩
      · rw [history, history, eventsOf_alike first second source alike step, sameHistory]
      · rw [performAll_answers, performAll_answers, sameAnswer, sameAnswers]

theorem alike_fresh : Alike {} {} :=
  ⟨rfl, rfl, rfl, fun command member => by cases member⟩

/-- Inspection changes nothing of what is computed.  Take any constraint files and any behaviour of
the solver, and any script whose programs ask nothing of the outside, on a fresh machine with
inspection and on one without. Both go through the same events, with the same states around each of
them; they end in the same state, with the same trace; every step of the script gets the same
answer, success, error or refusal, but for the recorded refusals of the inspector; and what the
inspected machine prints is, without the warnings, what the other one prints. -/
theorem inspection_transparent (script : List ScriptStep)
    (selfContained : ∀ step ∈ script, step.SelfContained) :
    let checked := afterAll first (some source.judge) {} script
    let plain := afterAll second none {} script
    history first (some source.judge) {} script = history second none {} script ∧
    checked.state = plain.state ∧ checked.trace = plain.trace ∧
    (performAll first (some source.judge) {} script).map
      (fun answer => answer.1.map withoutVerdicts) =
      (performAll second none {} script).map (fun answer => answer.1.map withoutVerdicts) ∧
    checked.said.toList.filter (fun line => !isWarning line) = plain.said.toList := by
  intro checked plain
  obtain ⟨alike, sameHistory, sameAnswers⟩ :=
    alike_script first second source script alike_fresh selfContained
  exact ⟨sameHistory, alike.state, alike.trace, sameAnswers, alike.said⟩

/-- A solver that takes too long over the one file of `add`: the addition is refused, the sum is the
same. -/
theorem inspection_transparent_timeout :
    let first : Ambient := ⟨fun _ => 0, fun _ => 0, fun _ => 0⟩
    let second : Ambient := ⟨fun _ => 1, fun _ => 2, fun _ => 3⟩
    let source : ConstraintSource :=
      { tree := ⟨[(["compiler"], .directory), (["compiler", "build"], .directory),
          (["compiler", "build", "zkvm_100_percent"], .directory),
          (["compiler", "build", "zkvm_100_percent", "add"], .directory),
          (["compiler", "build", "zkvm_100_percent", "add", "add_nibble_3.tau"],
            .file "solve x=1")]⟩
        directory := ["runtime"]
        solver := [("add_nibble_3.tau", .timedOut "['tau']")] }
    let script : List ScriptStep :=
      [.load [("push", [1]), ("push", [2]), ("ADD", []), ("log", [])], .execute 10 true]
    (∀ step ∈ script, step.SelfContained) ∧
      (afterAll first (some source.judge) {} script).violations.size = 1 ∧
      (afterAll first (some source.judge) {} script).state =
        (afterAll second none {} script).state := by
  intro first second source script
  have selfContained : ∀ step ∈ script, step.SelfContained := by decide +kernel
  have refused : (afterAll first (some source.judge) {} script).violations.size = 1 := by
    decide +kernel
  exact ⟨selfContained, refused,
    (inspection_transparent first second source script selfContained).2.1⟩

end Zkvm.Machine
