import Zkvm.Machine.Run
import Zkvm.Proofs.Machine.Effect

/-!
# A run, turn by turn

`turn` is one round of the loop of a run: it either executes a command or says why the run stops.  A
run is turns until one stops or the budget is spent (`runFor_zero`, `runFor_succ`), and what a turn
can do is said once, by `Turned`.  From there: a run over a sum of two budgets is the run over the
first one, continued if it ended for lack of budget alone.
-/
set_option autoImplicit false

namespace Zkvm.Machine

variable (ambient : Ambient) (inspector : Inspector)

/-- The machine after a command that succeeded: the entry, the verdict and the printed lines are
recorded, and the cycle is counted. -/
def recorded (m : Machine) (command : Command) (next : State) (said : List String) : Machine :=
  let verdict := inspector.examine command.opcode [] []
  { state := { next with cycles := next.cycles + 1 }
    trace := m.trace.push ⟨next.cycles, next.counter, command, next.stack.length, next.registers⟩
    violations :=
      if verdict.accepted then m.violations
      else m.violations.push { cycle := next.cycles, opcode := command.opcode }
    said := m.said ++ said ++ verdict.warnings }

/-- One round of the loop, with no regard to the budget: the machine it leaves and, where the run
does not go on, why. -/
def turn (m : Machine) : Machine × Option Stop :=
  if m.state.halted then (m, some .halted)
  else if m.state.program.length ≤ m.state.counter then (m, some .ended)
  else
    match fetch m.state.program m.state.counter with
    | .error fault => (m, some (.failed fault))
    | .ok command =>
      match step ambient command m.state with
      | .failed left fault => ({ m with state := left }, some (.failed fault))
      | .done next said => (recorded inspector m command next said, none)

/-- A number of turns that all executed a command. -/
def turns : Nat → Machine → Option Machine
  | 0, m => some m
  | count + 1, m =>
    match turn ambient inspector m with
    | (next, none) => turns count next
    | (_, some _) => none

/-- Everything a turn can do. -/
inductive Turned (m : Machine) : Machine → Option Stop → Prop where
  | halted (halt : m.state.halted = true) : Turned m m (some .halted)
  | ended (running : m.state.halted = false) (past : m.state.program.length ≤ m.state.counter) :
      Turned m m (some .ended)
  | unfetched (fault : Fault) (running : m.state.halted = false)
      (inside : m.state.counter < m.state.program.length)
      (missed : fetch m.state.program m.state.counter = .error fault) :
      Turned m m (some (.failed fault))
  | failed (command : Command) (left : State) (fault : Fault) (running : m.state.halted = false)
      (inside : m.state.counter < m.state.program.length)
      (fetched : fetch m.state.program m.state.counter = .ok command)
      (stepped : step ambient command m.state = .failed left fault) :
      Turned m { m with state := left } (some (.failed fault))
  | went (command : Command) (next : State) (said : List String) (running : m.state.halted = false)
      (inside : m.state.counter < m.state.program.length)
      (fetched : fetch m.state.program m.state.counter = .ok command)
      (stepped : step ambient command m.state = .done next said) :
      Turned m (recorded inspector m command next said) none

theorem fetch_front {program : List Command} {place : Nat} {command : Command}
    (found : program[place]? = some command) : fetch program place = .ok command := by
  have notLeast : ¬ (place : Int) < leastPlace := by
    unfold leastPlace
    omega
  have notNegative : ¬ (place : Int) < 0 := by omega
  simp only [fetch, notLeast, notNegative, if_false, Int.toNat_natCast, found]

theorem turned (m : Machine) :
    Turned ambient inspector m (turn ambient inspector m).1 (turn ambient inspector m).2 := by
  unfold turn
  split
  · next halt => exact .halted halt
  · next running =>
      have running : m.state.halted = false := by simpa using running
      split
      · next past => exact .ended running past
      · next inside =>
          have inside : m.state.counter < m.state.program.length := Int.not_le.mp inside
          cases fetched : fetch m.state.program m.state.counter with
          | error fault => exact .unfetched fault running inside fetched
          | ok command =>
              cases stepped : step ambient command m.state with
              | failed left fault =>
                  simpa only [stepped]
                    using Turned.failed command left fault running inside fetched stepped
              | done next said =>
                  simpa only [stepped]
                    using Turned.went command next said running inside fetched stepped

theorem turned_of_turn {m next : Machine} {stop : Option Stop}
    (result : turn ambient inspector m = (next, stop)) : Turned ambient inspector m next stop := by
  have view := turned ambient inspector m
  rw [result] at view
  exact view

theorem turn_of_turned {m next : Machine} {stop : Option Stop}
    (turned : Turned ambient inspector m next stop) : turn ambient inspector m = (next, stop) := by
  cases turned with
  | halted halt => simp [turn, halt]
  | ended running past => simp [turn, running, past]
  | unfetched fault running inside missed => simp [turn, running, Int.not_le.mpr inside, missed]
  | failed command left fault running inside fetched stepped =>
      simp [turn, running, Int.not_le.mpr inside, fetched, stepped]
  | went command next said running inside fetched stepped =>
      simp [turn, running, Int.not_le.mpr inside, fetched, stepped]

theorem program_turned {m next : Machine} {stop : Option Stop}
    (turned : Turned ambient inspector m next stop) : next.state.program = m.state.program := by
  cases turned with
  | halted | ended | unfetched => rfl
  | failed command left fault running inside fetched stepped =>
      obtain ⟨taken, rfl⟩ := step_failed stepped
      rfl
  | went command next said running inside fetched stepped =>
      obtain ⟨_, _, program, _, _⟩ := step_done stepped
      exact program

/-! ## A run is its turns -/

theorem runFor_zero (m : Machine) :
    runFor ambient inspector 0 m = (m, if m.state.halted then .halted else .limit) := by
  rw [runFor]
  cases m.state.halted <;> rfl

theorem runFor_succ (budget : Nat) (m : Machine) :
    runFor ambient inspector (budget + 1) m =
      match turn ambient inspector m with
      | (left, some stop) => (left, stop)
      | (next, none) => runFor ambient inspector budget next := by
  rw [runFor, turn]
  split
  · rfl
  · split
    · rfl
    · cases fetch m.state.program m.state.counter with
      | error fault => rfl
      | ok command =>
          simp only [execute]
          cases step ambient command m.state with
          | failed left fault => rfl
          | done next said => rfl

theorem turn_halted {m : Machine} (halt : m.state.halted = true) :
    turn ambient inspector m = (m, some .halted) := by
  simp [turn, halt]

theorem turn_ended {m : Machine} (running : m.state.halted = false)
    (past : m.state.program.length ≤ m.state.counter) :
    turn ambient inspector m = (m, some .ended) := by
  simp [turn, running, past]

theorem runFor_halted {m : Machine} (halt : m.state.halted = true) (budget : Nat) :
    runFor ambient inspector budget m = (m, .halted) := by
  cases budget with
  | zero => rw [runFor_zero, if_pos halt]
  | succ budget => rw [runFor_succ, turn_halted ambient inspector halt]

/-- A run over two budgets.  Only a run that ended for lack of budget goes on with the second
one. -/
theorem runFor_add (first second : Nat) (m : Machine) :
    runFor ambient inspector (first + second) m =
      match runFor ambient inspector first m with
      | (reached, .limit) => runFor ambient inspector second reached
      | ended => ended := by
  induction first generalizing m with
  | zero =>
      rw [Nat.zero_add, runFor_zero]
      cases halt : m.state.halted with
      | true => exact runFor_halted ambient inspector halt second
      | false => rfl
  | succ first ih =>
      rw [Nat.succ_add, runFor_succ, runFor_succ]
      cases result : turn ambient inspector m with
      | mk next stop =>
          cases stop with
          | none => exact ih next
          | some stop =>
              -- a turn never stops for lack of budget, so the second match falls through
              cases turned_of_turn ambient inspector result with
              | halted | ended | unfetched | failed => rfl

/-- What every turn keeps, a run keeps. -/
theorem runFor_keeps {kept : Machine → Prop}
    (turnKeeps : ∀ {m next : Machine} {stop : Option Stop},
      Turned ambient inspector m next stop → kept m → kept next)
    (budget : Nat) {m : Machine} (before : kept m) :
    kept (runFor ambient inspector budget m).1 := by
  induction budget generalizing m with
  | zero =>
      rw [runFor_zero]
      exact before
  | succ budget ih =>
      rw [runFor_succ]
      cases result : turn ambient inspector m with
      | mk next stop =>
          have after := turnKeeps (turned_of_turn ambient inspector result) before
          cases stop with
          | none => exact ih after
          | some stop => exact after

theorem turn_of_turns_succ {count : Nat} {m reached : Machine}
    (went : turns ambient inspector (count + 1) m = some reached) :
    ∃ next, turn ambient inspector m = (next, none) ∧
      turns ambient inspector count next = some reached := by
  rw [turns] at went
  cases result : turn ambient inspector m with
  | mk next stop =>
      rw [result] at went
      cases stop with
      | none => exact ⟨next, rfl, went⟩
      | some stop => cases went

theorem runFor_of_turns (count budget : Nat) {m reached : Machine}
    (went : turns ambient inspector count m = some reached) :
    runFor ambient inspector (count + budget) m = runFor ambient inspector budget reached := by
  induction count generalizing m with
  | zero =>
      cases Option.some.inj went
      rw [Nat.zero_add]
  | succ count ih =>
      obtain ⟨next, result, later⟩ := turn_of_turns_succ ambient inspector went
      rw [Nat.succ_add, runFor_succ, result]
      exact ih later

/-- A budget of as many cycles is used up by the turns and leads where they lead. -/
theorem runFor_fst_of_turns (count : Nat) {m reached : Machine}
    (went : turns ambient inspector count m = some reached) :
    (runFor ambient inspector count m).1 = reached := by
  have used := runFor_of_turns ambient inspector count 0 went
  rw [Nat.add_zero, runFor_zero] at used
  rw [used]

theorem run_of_turns (count : Nat) {m reached : Machine} (fresh : m.state.cycles = 0)
    (went : turns ambient inspector count m = some reached) :
    (m.run ambient inspector count).1 = reached := by
  have budget : ((count : Int) - m.state.cycles).toNat = count := by omega
  rw [run, budget, runFor_fst_of_turns ambient inspector count went]

theorem run_limit_of_turns (count : Nat) {m reached : Machine}
    (went : turns ambient inspector count m = some reached)
    (running : reached.state.halted = false) :
    m.run ambient inspector (m.state.cycles + count) = (reached, .limit) := by
  have budget : ((m.state.cycles : Int) + count - m.state.cycles).toNat = count + 0 := by omega
  rw [run, budget, runFor_of_turns ambient inspector count 0 went, runFor_zero, running]
  rfl

/-! ## Turns on end -/

theorem turns_add (first second : Nat) (m : Machine) :
    turns ambient inspector (first + second) m =
      (turns ambient inspector first m).bind (turns ambient inspector second) := by
  induction first generalizing m with
  | zero =>
      rw [Nat.zero_add]
      rfl
  | succ first ih =>
      rw [Nat.succ_add, turns, turns]
      cases turn ambient inspector m with
      | mk next stop =>
          cases stop with
          | none => exact ih next
          | some stop => rfl

theorem turns_one {m next : Machine} (turned : Turned ambient inspector m next none) :
    turns ambient inspector 1 m = some next := by
  rw [turns, turn_of_turned ambient inspector turned]
  rfl

/-- Turns are taken by machines that run: one that has not halted after them had not halted
before. -/
theorem running_of_turns (count : Nat) {m reached : Machine}
    (went : turns ambient inspector count m = some reached)
    (running : reached.state.halted = false) : m.state.halted = false := by
  cases count with
  | zero =>
      cases Option.some.inj went
      exact running
  | succ count =>
      obtain ⟨next, result, _⟩ := turn_of_turns_succ ambient inspector went
      cases turned_of_turn ambient inspector result with
      | went command next said running inside fetched stepped => exact running

theorem program_turns (count : Nat) {m reached : Machine}
    (went : turns ambient inspector count m = some reached) :
    reached.state.program = m.state.program := by
  have kept := runFor_keeps ambient inspector
    (fun turned same => (program_turned ambient inspector turned).trans same) count
      (rfl : m.state.program = _)
  rw [runFor_fst_of_turns ambient inspector count went] at kept
  exact kept

/-- What one turn carries over from a machine to another one, any number of turns does. -/
theorem turns_simulated (first second : Ambient) (inspector judge : Inspector)
    {related : Machine → Machine → Prop}
    (turnSimulated : ∀ {m other next : Machine},
      related m other → Turned first inspector m next none →
      ∃ reached, Turned second judge other reached none ∧ related next reached)
    (count : Nat) {m other reached : Machine} (start : related m other)
    (went : turns first inspector count m = some reached) :
    ∃ otherReached, turns second judge count other = some otherReached ∧
      related reached otherReached := by
  induction count generalizing m other with
  | zero =>
      cases Option.some.inj went
      exact ⟨other, rfl, start⟩
  | succ count ih =>
      obtain ⟨next, result, later⟩ := turn_of_turns_succ first inspector went
      obtain ⟨otherNext, turned, relatedNext⟩ :=
        turnSimulated start (turned_of_turn first inspector result)
      rw [turns, turn_of_turned second judge turned]
      exact ih relatedNext later

end Zkvm.Machine
