import Zkvm.Proofs.Machine.Aftermath
import Zkvm.Proofs.Machine.Ambient
import Zkvm.Proofs.Machine.Resumption

/-!
# Running on after a failure

A command that fails stays at the counter, and the operands that it has taken stay off the stack:
`Fault.taken` says how many they are.  So a further run tries the same command again, but on what is
left.  Where nothing was taken it comes to the same failure and leaves the same machine; where
something was, it may fail in another way, or succeed and go on.
-/
set_option autoImplicit false

namespace Zkvm.Machine

/-- The operations that ask the outside never fail, so a failure does not depend on its answers. -/
theorem step_failed_ambient (first second : Ambient) {command : Command} {s left : State}
    {fault : Fault} (failed : step first command s = .failed left fault) :
    step second command s = .failed left fault := by
  cases free : command.opcode.isAmbient with
  | false => rwa [← step_ambient first second free]
  | true =>
      obtain ⟨opcode, args⟩ := command
      cases opcode with
      | time | rand | id => cases failed
      | _ => cases free

/-! ## The round that fails -/

/-- How many operands the command at the counter has lost to a failure; none if no command was
fetched. -/
def lost (m : Machine) (fault : Fault) : Nat :=
  match fetch m.state.program m.state.counter with
  | .ok command => fault.taken command
  | .error _ => 0

theorem lost_of_fetch {m : Machine} {command : Command}
    (fetched : fetch m.state.program m.state.counter = .ok command) (fault : Fault) :
    m.lost fault = fault.taken command := by
  rw [lost, fetched]

section Rounds
variable (ambient : Ambient) (inspector : Inspector)

theorem runFor_failed (budget : Nat) {m left : Machine} {fault : Fault}
    (failed : runFor ambient inspector budget m = (left, .failed fault)) :
    ∃ count reached, count < budget ∧ turns ambient inspector count m = some reached ∧
      turn ambient inspector reached = (left, some (.failed fault)) := by
  induction budget generalizing m with
  | zero =>
      rw [runFor_zero] at failed
      cases halt : m.state.halted <;> simp [halt] at failed
  | succ budget ih =>
      rw [runFor_succ] at failed
      cases result : turn ambient inspector m with
      | mk next stop =>
          rw [result] at failed
          cases stop with
          | some stop =>
              cases failed
              exact ⟨0, m, Nat.succ_pos budget, rfl, result⟩
          | none =>
              obtain ⟨count, reached, fewer, went, fails⟩ := ih failed
              refine ⟨count + 1, reached, Nat.succ_lt_succ fewer, ?_, fails⟩
              rw [turns, result]
              exact went

theorem left_of_failed {m left : Machine} {fault : Fault}
    (fails : turn ambient inspector m = (left, some (.failed fault))) :
    left.lost fault ≤ m.state.stack.length ∧
      left =
        { m with state := { m.state with stack := m.state.stack.drop (left.lost fault) } } := by
  cases turned_of_turn ambient inspector fails with
  | unfetched fault running inside missed =>
      have none : m.lost fault = 0 := by rw [lost, missed]
      rw [none]
      exact ⟨Nat.zero_le _, rfl⟩
  | failed command left fault running inside fetched stepped =>
      obtain ⟨enough, rfl⟩ := taken_of_step stepped
      rw [lost_of_fetch (by exact fetched)]
      exact ⟨enough, rfl⟩

end Rounds

/-! ## Running again -/

section Again
variable (first second : Ambient) (inspector : Inspector) {m left : Machine} {fault : Fault}

theorem turn_failed_ambient (fails : turn first inspector m = (left, some (.failed fault))) :
    turn second inspector m = (left, some (.failed fault)) := by
  apply turn_of_turned
  cases turned_of_turn first inspector fails with
  | unfetched fault running inside missed => exact .unfetched fault running inside missed
  | failed command left fault running inside fetched stepped =>
      exact .failed command left fault running inside fetched
        (step_failed_ambient first second stepped)

theorem turn_again (fails : turn first inspector m = (left, some (.failed fault)))
    (untaken : left.lost fault = 0) :
    turn second inspector left = (left, some (.failed fault)) := by
  obtain ⟨_, taken⟩ := left_of_failed first inspector fails
  have same : left = m := by rwa [untaken, List.drop_zero] at taken
  rw [← turn_failed_ambient first second inspector fails, same]

/-- Where something was taken, a further run does not leave the machine as it is and fail in the
same way. -/
theorem untaken_of_run_again {limit : Int} (room : left.state.cycles < limit)
    (again : left.run second inspector limit = (left, .failed fault)) : left.lost fault = 0 := by
  cases result : turn second inspector left with
  | mk next stop =>
      cases stop with
      | some stop =>
          -- the same failure would have taken as much once more
          rw [run_stopped second inspector room result] at again
          cases again
          obtain ⟨enough, same⟩ := left_of_failed second inspector result
          have depths := congrArg (fun m : Machine => m.state.stack.length) same
          simp only [List.length_drop] at depths
          omega
      | none =>
          -- a success would have counted a cycle
          rw [run_went second inspector room result] at again
          have counted := cycles_of_turn second inspector result
          have grown : next.state.cycles ≤ left.state.cycles := by
            have kept := cycles_run second inspector limit next
            rwa [again] at kept
          omega

theorem run_failed {limit : Int} (failed : m.run first inspector limit = (left, .failed fault)) :
    ∃ count reached, turns first inspector count m = some reached ∧
      turn first inspector reached = (left, some (.failed fault)) ∧ left.state.cycles < limit := by
  obtain ⟨count, reached, fewer, went, fails⟩ := runFor_failed first inspector _ failed
  refine ⟨count, reached, went, fails, ?_⟩
  obtain ⟨_, same⟩ := left_of_failed first inspector fails
  have counted := cycles_of_turns first inspector count went
  have kept : left.state.cycles = reached.state.cycles := by rw [same]
  omega

end Again

theorem call_of_run (ambient : Ambient) (inspector : Inspector) {m left : Machine} {limit : Int}
    {stop : Stop} (result : m.run ambient inspector limit = (left, stop)) :
    m.call ambient inspector limit = (left, left.report stop) := by
  rw [call, result]

theorem run_of_error (ambient : Ambient) (inspector : Inspector) {m : Machine} {limit : Int}
    {text : String} (error : (m.call ambient inspector limit).2.error = some text) :
    ∃ fault : Fault, fault.message = text ∧
      m.run ambient inspector limit = ((m.call ambient inspector limit).1, .failed fault) := by
  unfold call at error ⊢
  cases result : m.run ambient inspector limit with
  | mk left stop =>
      rw [result] at error
      cases stop with
      | halted | limit | ended => cases error
      | failed fault => exact ⟨fault, Option.some.inj error, rfl⟩

theorem execute_taken (ambient : Ambient) (inspector : Inspector) {m left : Machine}
    {command : Command} {fault : Fault}
    (failed : execute ambient inspector command m = (left, some fault)) :
    left =
      { m with state := { m.state with stack := m.state.stack.drop (fault.taken command) } } := by
  unfold execute at failed
  cases stepped : step ambient command m.state with
  | done next said => simp [stepped] at failed
  | failed state cause =>
      rw [stepped] at failed
      cases failed
      rw [(taken_of_step stepped).2]

/-- Running on after a failure.  Take any machine and a call that reports an error, and call again
at once, with a limit that is no smaller.  The first call has come by some turns to a machine that
could not fetch a command or whose command failed; it has left that machine but for the operands
that were taken.  If there were none, the second call comes to the same report and leaves the same
machine.  If there were some, it does not: the same command is executed again, on what is left of
the stack, and unless it fails the run goes on; if it fails, it has once more only taken
operands. -/
theorem call_after_failure (first second : Ambient) (inspector : Inspector) (m : Machine)
    (n later : Int) (text : String) (ordered : n ≤ later)
    (error : (m.call first inspector n).2.error = some text) :
    let left := (m.call first inspector n).1
    ∃ fault : Fault, fault.message = text ∧ m.run first inspector n = (left, .failed fault) ∧
      (∃ count reached, turns first inspector count m = some reached ∧
        turn first inspector reached = (left, some (.failed fault)) ∧
        left.lost fault ≤ reached.state.stack.length ∧
        left = { reached with
          state := { reached.state with stack := reached.state.stack.drop (left.lost fault) } }) ∧
      (left.lost fault = 0 → left.call second inspector later = m.call first inspector n) ∧
      (left.lost fault ≠ 0 → left.run second inspector later ≠ m.run first inspector n) ∧
      ∀ command, fetch left.state.program left.state.counter = .ok command →
        (left.run second inspector later =
          match execute second inspector command left with
          | (again, some fault) => (again, .failed fault)
          | (next, none) => next.run second inspector later) ∧
        ∀ again other, execute second inspector command left = (again, some other) →
          again = { left with
            state :=
              { left.state with stack := left.state.stack.drop (other.taken command) } } := by
  intro left
  obtain ⟨fault, message, failed⟩ := run_of_error first inspector error
  obtain ⟨count, reached, went, fails, cyclesLeft⟩ := run_failed first inspector failed
  obtain ⟨enough, same⟩ := left_of_failed first inspector fails
  obtain ⟨running, inside⟩ := fits_of_turn first inspector fails
  have room : left.state.cycles < later := Int.lt_of_lt_of_le cyclesLeft ordered
  refine ⟨fault, message, failed, ⟨count, reached, went, fails, enough, same⟩, ?_, ?_, ?_⟩
  · intro untaken
    have again :=
      run_stopped second inspector room (turn_again first second inspector fails untaken)
    exact (call_of_run second inspector again).trans (call_of_run first inspector failed).symm
  · intro taken again
    rw [failed] at again
    exact taken (untaken_of_run_again second inspector room again)
  · intro command fetched
    refine ⟨run_fetched second inspector running room inside fetched, ?_⟩
    intro again other failedAgain
    exact execute_taken second inspector failedAgain

/-- A refused address among the arguments of a load is refused again, and nothing has changed; one
that a load has taken off the stack is gone. -/
theorem call_after_failure_addresses :
    let ambient : Ambient := ⟨fun _ => 0, fun _ => 0, fun _ => 0⟩
    let m : Machine := { state := { program := [⟨.push, [1]⟩, ⟨.load, [65536]⟩] } }
    let popping : Machine := { state := { program := [⟨.push, [65536]⟩, ⟨.load, []⟩] } }
    (m.call ambient none 5).1.call ambient none 9 = m.call ambient none 5 ∧
      (popping.call ambient none 5).1.run ambient none 9 ≠ popping.run ambient none 5 := by
  intro ambient m popping
  obtain ⟨fault, _, failed, _, again, _⟩ :=
    call_after_failure ambient ambient none m 5 9 "Invalid memory address: 65536" (by decide) rfl
  obtain ⟨other, _, otherFailed, _, _, differs, _⟩ :=
    call_after_failure ambient ambient none popping 5 9 "Invalid memory address: 65536"
      (by decide) rfl
  cases failed
  cases otherFailed
  exact ⟨again rfl, differs (by decide)⟩

/-- Not every failed call fails again: a failed assertion has taken its operand, and the next one
may do. -/
theorem failed_assertion_passes :
    ¬ ∀ (ambient : Ambient) (inspector : Inspector) (m : Machine) (n later : Int) (text : String),
      n ≤ later → (m.call ambient inspector n).2.error = some text →
      let left := (m.call ambient inspector n).1
      (left.call ambient inspector later).2.error = some text ∧
        (left.call ambient inspector later).1.state.stack = left.state.stack ∧
        (left.call ambient inspector later).1.state.memory = left.state.memory ∧
        (left.call ambient inspector later).1.state.counter = left.state.counter := by
  intro stays
  let ambient : Ambient := ⟨fun _ => 0, fun _ => 0, fun _ => 0⟩
  let m : Machine := { state := { program := [⟨.push, [1]⟩, ⟨.push, [0]⟩, ⟨.assert, []⟩] } }
  have passes : ((m.call ambient none 10).1.call ambient none 10).2.error = none := rfl
  obtain ⟨error, _⟩ := stays ambient none m 10 10 "Assertion failed" (by decide) rfl
  rw [passes] at error
  cases error

end Zkvm.Machine
