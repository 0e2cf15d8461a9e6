import Zkvm.Machine.Script
import Zkvm.Proofs.Machine.Turn

/-!
# The trace is a faithful record

A script leads one machine through loads, inputs and runs, some of which fail.  Whatever the script,
the trace holds one entry for each counted cycle, and neighbouring entries fit together: the later
command is the one at the counter that the earlier entry left, and the depth of the stack has
changed by that command's effect.  A load in between breaks the first link, a failed run the second,
for it may leave operands off the stack; so both links are carried from a place in the trace on,
together with what ties the last entry to the state of the machine.
-/
set_option autoImplicit false

namespace Zkvm.Machine

variable (ambient : Ambient) (inspector : Inspector)

/-! ## Links between neighbouring entries -/

/-- From place `start` on, neighbouring entries are related. -/
def Linked (start : Nat) (related : TraceEntry → TraceEntry → Prop)
    (entries : Array TraceEntry) : Prop :=
  ∀ k earlier later, start ≤ k → entries[k]? = some earlier → entries[k + 1]? = some later →
    related earlier later

/-- The last entry, if it is at place `start` or later, is as described. -/
def Tip (start : Nat) (described : TraceEntry → Prop) (entries : Array TraceEntry) : Prop :=
  ∀ k last, start ≤ k → entries.size = k + 1 → entries[k]? = some last → described last

theorem Linked.push {start : Nat} {related : TraceEntry → TraceEntry → Prop}
    {entries : Array TraceEntry} {entry : TraceEntry} (linked : Linked start related entries)
    (tip : Tip start (fun last => related last entry) entries) :
    Linked start related (entries.push entry) := by
  intro k earlier later fromStart atK atNext
  have bound : k + 1 < (entries.push entry).size := (Array.getElem?_eq_some_iff.mp atNext).1
  rw [Array.size_push] at bound
  rw [Array.getElem?_push, if_neg (by omega)] at atK
  by_cases final : k + 1 = entries.size
  · rw [Array.getElem?_push, if_pos final] at atNext
    cases Option.some.inj atNext
    exact tip k earlier fromStart final.symm atK
  · rw [Array.getElem?_push, if_neg final] at atNext
    exact linked k earlier later fromStart atK atNext

theorem tip_push {start : Nat} {described : TraceEntry → Prop} {entries : Array TraceEntry}
    {entry : TraceEntry} (fits : described entry) : Tip start described (entries.push entry) := by
  intro k last _ final atK
  rw [Array.size_push] at final
  have place : k = entries.size := by omega
  rw [place, Array.getElem?_push_size] at atK
  cases Option.some.inj atK
  exact fits

/-- From its end on, a trace has neither links nor a tip. -/
theorem linked_at_end (related : TraceEntry → TraceEntry → Prop) (entries : Array TraceEntry) :
    Linked entries.size related entries := by
  intro k earlier later fromEnd atK _
  have bound := (Array.getElem?_eq_some_iff.mp atK).1
  omega

theorem tip_at_end (described : TraceEntry → Prop) (entries : Array TraceEntry) :
    Tip entries.size described entries := by
  intro k last fromEnd final _
  omega

/-! ## What a turn keeps -/

/-- One entry stands for each cycle, at the place of its number, and the registers have never been
used. -/
structure Counted (m : Machine) : Prop where
  size : m.trace.size = m.state.cycles
  entries : ∀ (k : Nat) (entry : TraceEntry), m.trace[k]? = some entry →
    entry.cycle = k ∧ entry.registers = List.replicate 16 0
  registers : m.state.registers = List.replicate 16 0
  stackPointer : m.state.stackPointer = 0

def FollowsCounter (program : List Command) (earlier later : TraceEntry) : Prop :=
  fetch program earlier.counter = .ok later.command

def FollowsDepth (earlier later : TraceEntry) : Prop :=
  (later.depth : Int) = earlier.depth + stackEffect later.command

/-- From place `start` on, the trace follows the counter through the program up to the machine's
own. -/
structure Replays (start : Nat) (program : List Command) (m : Machine) : Prop where
  sameProgram : m.state.program = program
  tip : Tip start (fun last => last.counter = m.state.counter) m.trace
  linked : Linked start (FollowsCounter program) m.trace

/-- The last entry from place `start` on tells the depth of the machine's stack. -/
def DepthShown (start : Nat) (m : Machine) : Prop :=
  Tip start (fun last => last.depth = m.state.stack.length) m.trace

theorem counted_turned {m next : Machine} {stop : Option Stop}
    (turned : Turned ambient inspector m next stop) (counted : m.Counted) : next.Counted := by
  cases turned with
  | halted | ended | unfetched => exact counted
  | failed command left fault running inside fetched stepped =>
      obtain ⟨taken, rfl⟩ := step_failed stepped
      exact ⟨counted.size, counted.entries, counted.registers, counted.stackPointer⟩
  | went command next said running inside fetched stepped =>
      obtain ⟨registers, stackPointer, _, cycles, _⟩ := step_done stepped
      refine ⟨?_, ?_, registers.trans counted.registers, stackPointer.trans counted.stackPointer⟩
      · simp only [recorded, Array.size_push, counted.size, cycles]
      · intro k entry atK
        simp only [recorded, Array.getElem?_push] at atK
        split at atK
        · next final =>
            cases Option.some.inj atK
            exact ⟨by rw [final, counted.size, cycles], registers.trans counted.registers⟩
        · exact counted.entries k entry atK

theorem replays_turned {start : Nat} {program : List Command} {m next : Machine}
    {stop : Option Stop} (turned : Turned ambient inspector m next stop)
    (replays : m.Replays start program) :
    next.Replays start program := by
  have sameProgram := (program_turned ambient inspector turned).trans replays.sameProgram
  cases turned with
  | halted | ended | unfetched => exact replays
  | failed command left fault running inside fetched stepped =>
      obtain ⟨taken, rfl⟩ := step_failed stepped
      exact ⟨sameProgram, replays.tip, replays.linked⟩
  | went command next said running inside fetched stepped =>
      refine ⟨sameProgram, tip_push rfl, replays.linked.push ?_⟩
      intro k last fromStart final atK
      rw [FollowsCounter, replays.tip k last fromStart final atK, ← replays.sameProgram]
      exact fetched

/-- The links of depth outlive every turn; that the last entry shows the depth, only those that do
not fail. -/
theorem depth_turned {start : Nat} {m next : Machine} {stop : Option Stop}
    (turned : Turned ambient inspector m next stop) (shown : m.DepthShown start)
    (linked : Linked start FollowsDepth m.trace) :
    Linked start FollowsDepth next.trace ∧
      ((∀ fault, stop ≠ some (.failed fault)) → next.DepthShown start) := by
  cases turned with
  | halted | ended => exact ⟨linked, fun _ => shown⟩
  | unfetched fault | failed _ _ fault => exact ⟨linked, fun clean => absurd rfl (clean fault)⟩
  | went command next said running inside fetched stepped =>
      obtain ⟨_, _, _, _, depth⟩ := step_done stepped
      refine ⟨linked.push ?_, fun _ => tip_push rfl⟩
      intro k last fromStart final atK
      rw [FollowsDepth, shown k last fromStart final atK]
      exact depth

theorem grows_turned {before : List TraceEntry} {m next : Machine} {stop : Option Stop}
    (turned : Turned ambient inspector m next stop) (grown : before <+: m.trace.toList) :
    before <+: next.trace.toList := by
  cases turned with
  | halted | ended | unfetched | failed => exact grown
  | went command next said running inside fetched stepped =>
      rw [recorded, Array.toList_push]
      exact grown.trans (List.prefix_append _ _)

theorem depth_runFor {start : Nat} (budget : Nat) {m : Machine} (shown : m.DepthShown start)
    (linked : Linked start FollowsDepth m.trace) :
    Linked start FollowsDepth (runFor ambient inspector budget m).1.trace ∧
      ((∀ fault, (runFor ambient inspector budget m).2 ≠ .failed fault) →
        (runFor ambient inspector budget m).1.DepthShown start) := by
  induction budget generalizing m with
  | zero =>
      rw [runFor_zero]
      exact ⟨linked, fun _ => shown⟩
  | succ budget ih =>
      rw [runFor_succ]
      cases result : turn ambient inspector m with
      | mk next stop =>
          obtain ⟨linkedNext, shownNext⟩ :=
            depth_turned ambient inspector (turned_of_turn ambient inspector result) shown linked
          cases stop with
          | none => exact ih (shownNext (fun fault => by simp)) linkedNext
          | some stop =>
              exact ⟨linkedNext, fun clean => shownNext fun fault failed =>
                clean fault (Option.some.inj failed)⟩

/-! ## Scripts -/

/-- The machine after a step of a script.  A step that is refused leaves it as it was. -/
def after (m : Machine) (step : ScriptStep) : Machine :=
  match m.perform ambient inspector step with
  | .ok (_, next) => next
  | .error _ => m

def afterAll (m : Machine) (script : List ScriptStep) : Machine :=
  script.foldl (after ambient inspector) m

def ScriptStep.Loads : ScriptStep → Prop
  | .load source => ∃ program, parse source = .ok program
  | _ => False

/-- The limit of cycles up to which a step runs the machine, if it runs it. -/
def ScriptStep.limit? (m : Machine) : ScriptStep → Option Int
  | .execute limit _ => some limit
  | .advance cycles _ => some (m.state.cycles + cycles)
  | _ => none

/-- The step runs the machine and the run fails. -/
def ScriptStep.Fails (m : Machine) (step : ScriptStep) : Prop :=
  ∃ limit fault, step.limit? m = some limit ∧ (m.run ambient inspector limit).2 = .failed fault

/-- Everything a step of a script can do. -/
inductive Performed (m : Machine) (step : ScriptStep) : Machine → Prop where
  | loaded (program : List Command) (loads : step.Loads) :
      Performed m step { m with state := { m.state with program, counter := 0, halted := false } }
  | fed (values : List Int) : Performed m step (m.feed values)
  | ran (limit : Int) (runs : step.limit? m = some limit) :
      Performed m step (m.run ambient inspector limit).1
  | idle : Performed m step m

theorem performed (m : Machine) (step : ScriptStep) :
    Performed ambient inspector m step (m.after ambient inspector step) := by
  cases step with
  | load source =>
      cases parsed : parse source with
      | error unknown =>
          simp only [after, perform, load?, parsed]
          exact .idle
      | ok program =>
          simp only [after, perform, load?, parsed]
          exact .loaded program ⟨program, parsed⟩
  | feed values => exact .fed values
  | execute limit whole => exact .ran limit rfl
  | advance cycles whole => exact .ran (m.state.cycles + cycles) rfl
  | peek addresses =>
      simp only [after, perform]
      cases addresses.mapM fun address => (place .read address).map fun i =>
        Json.int (m.state.memory.get i) with
      | error cause => exact .idle
      | ok found => exact .idle
  | dump => exact .idle

theorem counted_performed {m next : Machine} {step : ScriptStep}
    (performed : Performed ambient inspector m step next) (counted : m.Counted) : next.Counted := by
  cases performed with
  | loaded | fed => exact ⟨counted.size, counted.entries, counted.registers, counted.stackPointer⟩
  | ran limit => exact runFor_keeps ambient inspector (counted_turned ambient inspector) _ counted
  | idle => exact counted

theorem grows_run (m : Machine) (limit : Int) :
    m.trace.toList <+: (m.run ambient inspector limit).1.trace.toList :=
  runFor_keeps ambient inspector (grows_turned ambient inspector) _ List.prefix_rfl

theorem grows_performed {m next : Machine} {step : ScriptStep}
    (performed : Performed ambient inspector m step next) :
    m.trace.toList <+: next.trace.toList := by
  cases performed with
  | loaded | fed | idle => exact List.prefix_rfl
  | ran limit => exact grows_run ambient inspector m limit

theorem replays_performed {start : Nat} {program : List Command} {m next : Machine}
    {step : ScriptStep} (performed : Performed ambient inspector m step next) (keeps : ¬ step.Loads)
    (replays : m.Replays start program) : next.Replays start program := by
  cases performed with
  | loaded program loads => exact absurd loads keeps
  | fed => exact ⟨replays.sameProgram, replays.tip, replays.linked⟩
  | ran limit => exact runFor_keeps ambient inspector (replays_turned ambient inspector) _ replays
  | idle => exact replays

theorem depth_performed {start : Nat} {m next : Machine} {step : ScriptStep}
    (performed : Performed ambient inspector m step next) (shown : m.DepthShown start)
    (linked : Linked start FollowsDepth m.trace) :
    Linked start FollowsDepth next.trace ∧
      (¬ step.Fails ambient inspector m → next.DepthShown start) := by
  cases performed with
  | loaded | fed | idle => exact ⟨linked, fun _ => shown⟩
  | ran limit runs =>
      obtain ⟨linkedAfter, shownAfter⟩ := depth_runFor ambient inspector _ shown linked
      exact ⟨linkedAfter, fun clean => shownAfter fun fault failed =>
        clean ⟨limit, fault, runs, failed⟩⟩

theorem trace_of_loads {m : Machine} {step : ScriptStep} (loads : step.Loads) :
    (m.after ambient inspector step).trace = m.trace := by
  cases step with
  | load source =>
      obtain ⟨program, parsed⟩ := loads
      simp only [after, perform, load?, parsed]
      rfl
  | feed | execute | advance | peek | dump => cases loads

/-! ## Stages of a script -/

/-- A fresh machine after the first steps of a script. -/
def stage (script : List ScriptStep) (count : Nat) : Machine :=
  afterAll ambient inspector {} (script.take count)

/-- The step with this number wrote the entry at this place. -/
def RecordedBy (script : List ScriptStep) (number place : Nat) : Prop :=
  (stage ambient inspector script number).trace.size ≤ place ∧
    place < (stage ambient inspector script (number + 1)).trace.size

section Stages
variable {script : List ScriptStep}

theorem stage_succ {count : Nat} {step : ScriptStep} (atCount : script[count]? = some step) :
    stage ambient inspector script (count + 1) =
      (stage ambient inspector script count).after ambient inspector step := by
  rw [stage, List.take_add_one, atCount, afterAll, List.foldl_append]
  rfl

theorem stage_past {count : Nat} (past : script[count]? = none) :
    stage ambient inspector script (count + 1) = stage ambient inspector script count := by
  rw [stage, List.take_add_one, past, Option.toList_none, List.append_nil, stage]

theorem counted_afterAll (script : List ScriptStep) {m : Machine} (counted : m.Counted) :
    (afterAll ambient inspector m script).Counted := by
  induction script generalizing m with
  | nil => exact counted
  | cons step rest ih =>
      have next := counted_performed ambient inspector (performed ambient inspector m step) counted
      exact ih next

theorem grows_afterAll (script : List ScriptStep) (m : Machine) :
    m.trace.toList <+: (afterAll ambient inspector m script).trace.toList := by
  induction script generalizing m with
  | nil => exact List.prefix_rfl
  | cons step rest ih =>
      have next := grows_performed ambient inspector (performed ambient inspector m step)
      exact next.trans (ih (m.after ambient inspector step))

theorem stage_add (first more : Nat) :
    stage ambient inspector script (first + more) =
      afterAll ambient inspector (stage ambient inspector script first)
        ((script.drop first).take more) := by
  rw [stage, List.take_add, afterAll, List.foldl_append]
  rfl

theorem stage_grows (script : List ScriptStep) {first second : Nat} (ordered : first ≤ second) :
    (stage ambient inspector script first).trace.toList <+:
      (stage ambient inspector script second).trace.toList := by
  obtain ⟨more, rfl⟩ := Nat.exists_eq_add_of_le ordered
  rw [stage_add]
  exact grows_afterAll ambient inspector _ _

theorem stage_of_length_le {count : Nat} (past : script.length ≤ count) :
    stage ambient inspector script count = afterAll ambient inspector {} script := by
  rw [stage, List.take_of_length_le past]

theorem stage_grows_afterAll (script : List ScriptStep) (count : Nat) :
    (stage ambient inspector script count).trace.toList <+:
      (afterAll ambient inspector {} script).trace.toList := by
  rw [← stage_of_length_le ambient inspector (Nat.le_add_left script.length count)]
  exact stage_grows ambient inspector script (Nat.le_add_right count script.length)

/-- Over steps that load nothing, the trace replays the program they started with. -/
theorem replays_stages (first more : Nat)
    (free : ∀ number step, first ≤ number → number < first + more → script[number]? = some step →
      ¬ step.Loads) :
    (stage ambient inspector script (first + more)).Replays
      (stage ambient inspector script first).trace.size
      (stage ambient inspector script first).state.program := by
  induction more with
  | zero => exact ⟨rfl, tip_at_end _ _, linked_at_end _ _⟩
  | succ more ih =>
      have before := ih fun number step lower upper => free number step lower (by omega)
      rw [← Nat.add_assoc]
      cases atNumber : script[first + more]? with
      | none =>
          rw [stage_past ambient inspector atNumber]
          exact before
      | some step =>
          rw [stage_succ ambient inspector atNumber]
          have keeps := free (first + more) step (by omega) (by omega) atNumber
          exact replays_performed ambient inspector (performed ambient inspector _ step)
            keeps before

/-- Over steps none of which fails, the last entry goes on to show the depth of the stack. -/
theorem depth_stages (first more : Nat)
    (clean : ∀ number step, first ≤ number → number < first + more → script[number]? = some step →
      ¬ step.Fails ambient inspector (stage ambient inspector script number)) :
    (stage ambient inspector script (first + more)).DepthShown
        (stage ambient inspector script first).trace.size ∧
      Linked (stage ambient inspector script first).trace.size FollowsDepth
        (stage ambient inspector script (first + more)).trace := by
  induction more with
  | zero => exact ⟨tip_at_end _ _, linked_at_end _ _⟩
  | succ more ih =>
      obtain ⟨shown, linked⟩ := ih fun number step lower upper => clean number step lower (by omega)
      rw [← Nat.add_assoc]
      cases atNumber : script[first + more]? with
      | none =>
          rw [stage_past ambient inspector atNumber]
          exact ⟨shown, linked⟩
      | some step =>
          rw [stage_succ ambient inspector atNumber]
          obtain ⟨linkedAfter, shownAfter⟩ :=
            depth_performed ambient inspector (performed ambient inspector _ step) shown linked
          exact ⟨shownAfter (clean (first + more) step (by omega) (by omega) atNumber), linkedAfter⟩

theorem RecordedBy.not_loads {number place : Nat} {step : ScriptStep}
    (recorded : RecordedBy ambient inspector script number place)
    (atNumber : script[number]? = some step) : ¬ step.Loads := by
  intro loads
  obtain ⟨lower, upper⟩ := recorded
  rw [stage_succ ambient inspector atNumber, trace_of_loads ambient inspector loads] at upper
  omega

theorem stage_size_le (script : List ScriptStep) {first second : Nat} (ordered : first ≤ second) :
    (stage ambient inspector script first).trace.size ≤
      (stage ambient inspector script second).trace.size := by
  have grown := (stage_grows ambient inspector script ordered).length_le
  rwa [Array.length_toList, Array.length_toList] at grown

theorem RecordedBy.ordered {first second place : Nat}
    (earlier : RecordedBy ambient inspector script first place)
    (later : RecordedBy ambient inspector script second (place + 1)) : first ≤ second := by
  apply Nat.le_of_not_lt
  intro reversed
  have sizes := stage_size_le ambient inspector script
    (show second + 1 ≤ first from reversed)
  have lower := earlier.1
  have upper := later.2
  omega

theorem getElem?_stage (count : Nat) {place : Nat}
    (present : place < (stage ambient inspector script count).trace.size) :
    (afterAll ambient inspector {} script).trace[place]? =
      (stage ambient inspector script count).trace[place]? := by
  obtain ⟨more, grown⟩ := stage_grows_afterAll ambient inspector script count
  rw [← Array.getElem?_toList, ← grown, List.getElem?_append_left (by simpa using present),
    Array.getElem?_toList]

theorem exists_recordedBy {count place : Nat}
    (present : place < (stage ambient inspector script count).trace.size) :
    ∃ number, RecordedBy ambient inspector script number place := by
  induction count with
  | zero => exact absurd present (Nat.not_lt_zero place)
  | succ count ih =>
      by_cases before : place < (stage ambient inspector script count).trace.size
      · exact ih before
      · exact ⟨count, Nat.le_of_not_lt before, present⟩

/-- Entries that follow each other, with no load between the steps that wrote them, follow the
counter. -/
theorem followsCounter_of_recordedBy {i j k : Nat} {earlier later : TraceEntry}
    (first : RecordedBy ambient inspector script i k)
    (second : RecordedBy ambient inspector script j (k + 1))
    (atK : (afterAll ambient inspector {} script).trace[k]? = some earlier)
    (atNext : (afterAll ambient inspector {} script).trace[k + 1]? = some later)
    (free : ∀ number step, i < number → number < j → script[number]? = some step → ¬ step.Loads) :
    FollowsCounter (stage ambient inspector script j).state.program earlier later := by
  obtain ⟨more, rfl⟩ := Nat.exists_eq_add_of_le (first.ordered ambient inspector second)
  -- the steps that wrote the two entries load nothing either
  have noLoad : ∀ number step, i ≤ number → number < i + (more + 1) → script[number]? = some step →
      ¬ step.Loads := by
    intro number step lower upper atNumber
    by_cases isFirst : number = i
    · subst isFirst
      exact first.not_loads ambient inspector atNumber
    · by_cases isSecond : number = i + more
      · subst isSecond
        exact second.not_loads ambient inspector atNumber
      · exact free number step (by omega) (by omega) atNumber
  have before := replays_stages ambient inspector i more fun number step lower upper =>
    noLoad number step lower (by omega)
  have after := replays_stages ambient inspector i (more + 1) noLoad
  have upper := second.2
  rw [getElem?_stage ambient inspector (i + more + 1) (by omega)] at atK atNext
  rw [before.sameProgram]
  exact after.linked k earlier later first.1 atK atNext

/-- If moreover none of the steps from the one that wrote the first entry on has failed before the
second one was written, the depth of the stack has changed by the effect of the later command. -/
theorem followsDepth_of_recordedBy {i j k : Nat} {earlier later : TraceEntry}
    (first : RecordedBy ambient inspector script i k)
    (second : RecordedBy ambient inspector script j (k + 1))
    (atK : (afterAll ambient inspector {} script).trace[k]? = some earlier)
    (atNext : (afterAll ambient inspector {} script).trace[k + 1]? = some later)
    (clean : ∀ number step, i ≤ number → number < j → script[number]? = some step →
      ¬ step.Fails ambient inspector (stage ambient inspector script number)) :
    FollowsDepth earlier later := by
  obtain ⟨more, rfl⟩ := Nat.exists_eq_add_of_le (first.ordered ambient inspector second)
  obtain ⟨shown, linked⟩ := depth_stages ambient inspector i more clean
  have upper := second.2
  rw [getElem?_stage ambient inspector (i + more + 1) (by omega)] at atK atNext
  cases atNumber : script[i + more]? with
  | none =>
      rw [stage_past ambient inspector atNumber] at atK atNext
      exact linked k earlier later first.1 atK atNext
  | some step =>
      rw [stage_succ ambient inspector atNumber] at atK atNext
      -- the last step may fail, but only after it has written its entries
      have linkedAfter :=
        (depth_performed ambient inspector (performed ambient inspector _ step) shown linked).1
      exact linkedAfter k earlier later first.1 atK atNext

end Stages

/-- A command that fails writes no entry and counts no cycle. -/
theorem execute_failed {m left : Machine} {command : Command} {fault : Fault}
    (failed : execute ambient inspector command m = (left, some fault)) :
    left.trace = m.trace ∧ left.state.cycles = m.state.cycles := by
  unfold execute at failed
  cases stepped : step ambient command m.state with
  | done next said => simp [stepped] at failed
  | failed state cause =>
      obtain ⟨taken, rfl⟩ := step_failed stepped
      rw [stepped] at failed
      cases (Prod.mk.inj failed).1
      exact ⟨rfl, rfl⟩

theorem counted_fresh : Counted {} :=
  ⟨rfl, fun k entry atK => by simp at atK, rfl, rfl⟩

/-- The trace is a faithful, replayable record.  After any script of loads, inputs and runs on a
fresh machine, failed runs among them, it has one entry a cycle, and the registers, the stack
pointer and the size of the memory are as they were.  Of two neighbouring entries with no load
between the steps that wrote them, the later one has the command at the counter that the earlier one
left; if no run failed in between, the depths differ by the effect of that command.  A command that
fails leaves no entry and no cycle. -/
theorem trace_faithful (script : List ScriptStep) :
    let final := afterAll ambient inspector {} script
    (final.trace.size = final.state.cycles ∧
      (∀ (k : Nat) (entry : TraceEntry), final.trace[k]? = some entry →
        entry.cycle = k ∧ entry.registers = List.replicate 16 0) ∧
      final.state.registers = List.replicate 16 0 ∧ final.state.stackPointer = 0 ∧
      final.state.memory.toList.length = 65536) ∧
    (∀ k, k < final.trace.size → ∃ number, RecordedBy ambient inspector script number k) ∧
    (∀ (i j k : Nat) (earlier later : TraceEntry),
      RecordedBy ambient inspector script i k → RecordedBy ambient inspector script j (k + 1) →
      final.trace[k]? = some earlier → final.trace[k + 1]? = some later →
      (∀ number step, i < number → number < j → script[number]? = some step → ¬ step.Loads) →
      fetch (stage ambient inspector script j).state.program earlier.counter = .ok later.command ∧
      ((∀ number step, i ≤ number → number < j → script[number]? = some step →
          ¬ step.Fails ambient inspector (stage ambient inspector script number)) →
        (later.depth : Int) = earlier.depth + stackEffect later.command)) ∧
    (∀ m command left fault, execute ambient inspector command m = (left, some fault) →
      left.trace = m.trace ∧ left.state.cycles = m.state.cycles) := by
  intro final
  have counted := counted_afterAll ambient inspector script counted_fresh
  refine ⟨⟨counted.size, counted.entries, counted.registers, counted.stackPointer, by simp⟩,
    ?_, ?_, ?_⟩
  · intro k present
    apply exists_recordedBy ambient inspector
    rw [stage_of_length_le ambient inspector (Nat.le_refl script.length)]
    exact present
  · intro i j k earlier later first second atK atNext free
    exact ⟨followsCounter_of_recordedBy ambient inspector first second atK atNext free,
      followsDepth_of_recordedBy ambient inspector first second atK atNext⟩
  · intro m command left fault failed
    exact execute_failed ambient inspector failed

/-- A run that fails at `assert` and is taken up again: the entry written after the failure has the
command at the counter of the entry before it. -/
theorem trace_faithful_past_failure :
    let ambient : Ambient := ⟨fun _ => 0, fun _ => 0, fun _ => 0⟩
    let script : List ScriptStep :=
      [.load [("push", [1]), ("PUSH", [0]), ("assert", [])], .execute 10 true, .execute 10 true]
    RecordedBy ambient none script 1 1 ∧ RecordedBy ambient none script 2 2 ∧
      ∃ earlier later, (afterAll ambient none {} script).trace[1]? = some earlier ∧
        (afterAll ambient none {} script).trace[2]? = some later ∧
        fetch (stage ambient none script 2).state.program earlier.counter = .ok later.command := by
  intro ambient script
  have first : RecordedBy ambient none script 1 1 := ⟨Nat.zero_le _, by decide⟩
  have second : RecordedBy ambient none script 2 2 := ⟨by decide, by decide⟩
  have present : 2 < (afterAll ambient none {} script).trace.size := by decide
  have atFirst := Array.getElem?_eq_getElem (Nat.lt_of_succ_lt present)
  have atSecond := Array.getElem?_eq_getElem present
  have link := (trace_faithful ambient none script).2.2.1 1 2 1 _ _ first second atFirst atSecond
    (fun number step lower upper => by omega)
  exact ⟨first, second, _, _, atFirst, atSecond, link.1⟩

end Zkvm.Machine
