import Zkvm.Proofs.Machine.Trace

/-!
# The history of a machine

A script leads a machine through loads, inputs and runs.  Its history is the row of all commands
that were executed, over all runs, each with the states before and after it; a command that failed
is no event.  The trace is what the history shows of itself (`trace_eq_history`).  What relates a
history to the machine that it led to is proved by `Lasting`: it is enough to look at one event, one
failure, one load and one input.
-/
set_option autoImplicit false

namespace Zkvm.Machine

/-- A command that was executed, with the states around it. -/
structure Event where
  command : Command
  before : State
  after : State

def Event.entry (event : Event) : TraceEntry :=
  ⟨event.before.cycles, event.after.counter, event.command, event.after.stack.length,
    event.after.registers⟩

variable (ambient : Ambient) (inspector : Inspector)

def eventsFor : Nat → Machine → List Event
  | 0, _ => []
  | budget + 1, m =>
    match turn ambient inspector m, fetch m.state.program m.state.counter with
    | (next, none), .ok command => ⟨command, m.state, next.state⟩ :: eventsFor budget next
    | _, _ => []

def eventsOf (m : Machine) (step : ScriptStep) : List Event :=
  match step.limit? m with
  | some limit => eventsFor ambient inspector (limit - m.state.cycles).toNat m
  | none => []

def history (m : Machine) : List ScriptStep → List Event
  | [] => []
  | step :: rest =>
    m.eventsOf ambient inspector step ++ history (m.after ambient inspector step) rest

theorem eventsFor_went (budget : Nat) {m : Machine} {command : Command} {next : State}
    {said : List String}
    (turned : Turned ambient inspector m (recorded inspector m command next said) none)
    (fetched : fetch m.state.program m.state.counter = .ok command) :
    eventsFor ambient inspector (budget + 1) m =
      ⟨command, m.state, (recorded inspector m command next said).state⟩ ::
        eventsFor ambient inspector budget (recorded inspector m command next said) := by
  simp only [eventsFor, turn_of_turned ambient inspector turned, fetched]

theorem eventsFor_stopped (budget : Nat) {m left : Machine} {stop : Stop}
    (result : turn ambient inspector m = (left, some stop)) :
    eventsFor ambient inspector (budget + 1) m = [] := by
  simp only [eventsFor, result]

/-- A step that runs nothing adds no event. -/
theorem append_eventsOf_still {m : Machine} {step : ScriptStep} (still : step.limit? m = none)
    (past : List Event) : past ++ m.eventsOf ambient inspector step = past := by
  rw [eventsOf, still, List.append_nil]

/-! ## What lasts over a history -/

/-- What outlasts a command that succeeds and one that fails outlasts a run, whose events join the
past. -/
theorem runFor_lasts {kept : List Event → Machine → Prop}
    (went : ∀ {past m command next said},
      step ambient command m.state = .done next said → kept past m →
      kept (past ++ [⟨command, m.state, (recorded inspector m command next said).state⟩])
        (recorded inspector m command next said))
    (failed : ∀ {past} {m : Machine} (taken : Nat), kept past m →
      kept past { m with state := { m.state with stack := m.state.stack.drop taken } })
    (budget : Nat) {past : List Event} {m : Machine} (before : kept past m) :
    kept (past ++ eventsFor ambient inspector budget m) (runFor ambient inspector budget m).1 := by
  induction budget generalizing past m with
  | zero =>
      rw [eventsFor, List.append_nil, runFor_zero]
      exact before
  | succ budget ih =>
      rw [runFor_succ]
      cases result : turn ambient inspector m with
      | mk next stop =>
          have turned := turned_of_turn ambient inspector result
          cases stop with
          | some stop =>
              rw [eventsFor_stopped ambient inspector budget result, List.append_nil]
              cases turned with
              | halted | ended | unfetched => exact before
              | failed command left fault running inside fetched stepped =>
                  obtain ⟨taken, rfl⟩ := step_failed stepped
                  exact failed taken before
          | none =>
              cases turned with
              | went command next said running inside fetched stepped =>
                  -- the new event belongs to the past of the cycles that are left
                  have later := ih (went stepped before)
                  rw [List.append_assoc, List.singleton_append] at later
                  rw [eventsFor_went ambient inspector budget
                    (turned_of_turn ambient inspector result) fetched]
                  exact later

/-- A relation between a history and the machine it led to that outlasts all that can happen to a
machine. -/
structure Lasting (kept : List Event → Machine → Prop) : Prop where
  went : ∀ {past m command next said},
    step ambient command m.state = .done next said → kept past m →
    kept (past ++ [⟨command, m.state, (recorded inspector m command next said).state⟩])
      (recorded inspector m command next said)
  /-- A failed command has only taken operands. -/
  failed : ∀ {past} {m : Machine} (taken : Nat), kept past m →
    kept past { m with state := { m.state with stack := m.state.stack.drop taken } }
  loaded : ∀ {past} {m : Machine} (program : List Command), kept past m →
    kept past { m with state := { m.state with program, counter := 0, halted := false } }
  fed : ∀ {past m} (values : List Int), kept past m → kept past (m.feed values)

section Lasting
variable {ambient inspector} {kept : List Event → Machine → Prop}
  (lasting : Lasting ambient inspector kept)
include lasting

theorem Lasting.runFor (budget : Nat) {past : List Event} {m : Machine} (before : kept past m) :
    kept (past ++ eventsFor ambient inspector budget m) (runFor ambient inspector budget m).1 :=
  runFor_lasts ambient inspector lasting.went lasting.failed budget before

theorem Lasting.after (step : ScriptStep) {past : List Event} {m : Machine} (before : kept past m) :
    kept (past ++ m.eventsOf ambient inspector step) (m.after ambient inspector step) := by
  cases step with
  | load source =>
      rw [append_eventsOf_still ambient inspector rfl]
      cases parsed : parse source with
      | error unknown =>
          simp only [Machine.after, perform, load?, parsed]
          exact before
      | ok program =>
          simp only [Machine.after, perform, load?, parsed]
          exact lasting.loaded program before
  | feed values =>
      rw [append_eventsOf_still ambient inspector rfl]
      exact lasting.fed values before
  | execute limit whole => exact lasting.runFor _ before
  | advance cycles whole => exact lasting.runFor _ before
  | peek addresses =>
      rw [append_eventsOf_still ambient inspector rfl]
      simp only [Machine.after, perform]
      cases addresses.mapM fun address => (place .read address).map fun i =>
        Json.int (m.state.memory.get i) with
      | error cause => exact before
      | ok found => exact before
  | dump =>
      rw [append_eventsOf_still ambient inspector rfl]
      exact before

/-- What lasts holds of the history of any script and the machine after it. -/
theorem Lasting.afterAll (script : List ScriptStep) {past : List Event} {m : Machine}
    (before : kept past m) :
    kept (past ++ history ambient inspector m script) (afterAll ambient inspector m script) := by
  induction script generalizing past m with
  | nil =>
      rw [history, List.append_nil]
      exact before
  | cons step rest ih =>
      rw [history, ← List.append_assoc]
      exact ih (lasting.after step before)

theorem Lasting.fresh (script : List ScriptStep) (start : kept [] {}) :
    kept (history ambient inspector {} script) (Machine.afterAll ambient inspector {} script) :=
  lasting.afterAll script start

/-- What lasts held before every event, of the events up to then. -/
theorem Lasting.before (script : List ScriptStep) (start : kept [] {}) {earlier later : List Event}
    {event : Event} (same : history ambient inspector {} script = earlier ++ event :: later) :
    ∃ m : Machine, m.state = event.before ∧ kept earlier m := by
  have known : Lasting ambient inspector fun past m => kept past m ∧
      ∀ earlier event later, past = earlier ++ event :: later →
        ∃ m : Machine, m.state = event.before ∧ kept earlier m := by
    refine ⟨?_, fun taken before => ⟨lasting.failed taken before.1, before.2⟩,
      fun program before => ⟨lasting.loaded program before.1, before.2⟩,
      fun values before => ⟨lasting.fed values before.1, before.2⟩⟩
    intro past m command next said done before
    refine ⟨lasting.went done before.1, ?_⟩
    intro earlier event later same
    rcases List.eq_nil_or_concat later with rfl | ⟨others, last, rfl⟩
    · -- the event is the new one
      obtain ⟨rfl, single⟩ := List.append_inj' same rfl
      cases single
      exact ⟨m, rfl, before.1⟩
    · -- the event is one of the past
      rw [List.concat_eq_append, ← List.cons_append, ← List.append_assoc] at same
      obtain ⟨past, _⟩ := List.append_inj' same rfl
      exact before.2 earlier event others past
  refine (known.fresh script ⟨start, ?_⟩).2 earlier event later same
  intro earlier event later same
  have lengths := congrArg List.length same
  simp at lengths

end Lasting

/-- The trace of a machine shows its history. -/
theorem trace_eq_history (script : List ScriptStep) :
    (afterAll ambient inspector {} script).trace.toList =
      (history ambient inspector {} script).map Event.entry := by
  have lasting : Lasting ambient inspector fun past m => m.trace.toList = past.map Event.entry := by
    refine ⟨?_, fun _ shown => shown, fun _ shown => shown, fun _ shown => shown⟩
    intro past m command next said stepped shown
    obtain ⟨_, _, _, cycles, _⟩ := step_done stepped
    simp only [recorded, Array.toList_push, shown, List.map_append, List.map_cons, List.map_nil,
      Event.entry, cycles]
  exact lasting.fresh script rfl

end Zkvm.Machine
