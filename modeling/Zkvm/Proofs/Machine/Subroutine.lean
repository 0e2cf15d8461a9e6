import Zkvm.Proofs.Machine.Counter
import Zkvm.Proofs.Machine.Idle
import Zkvm.Proofs.Machine.StackFrame

/-!
# Calls return

A call puts the place behind it on the stack on which the values are, too, and a return goes to
whatever is on top.  The two are matched if the commands in between, other calls included, take off
what they have put on: by the frame rule they never take the return place, nor the caller's values
below it.  What the body does is stated of a machine of its own that starts with an empty stack, at
any count of cycles; the caller carries its state.
-/
set_option autoImplicit false

namespace Zkvm.Machine

/-- The states have the same program, memory, buffers, hash and signatures, and are both halted or
both not. -/
structure State.Agrees (s other : State) : Prop where
  program : other.program = s.program
  memory : other.memory = s.memory
  halted : other.halted = s.halted
  lastHash : other.lastHash = s.lastHash
  signatures : other.signatures = s.signatures
  inputs : other.inputs = s.inputs
  outputs : other.outputs = s.outputs

theorem State.Agrees.trans {s other third : State} (here : s.Agrees other)
    (there : other.Agrees third) :
    s.Agrees third :=
  ⟨there.program.trans here.program, there.memory.trans here.memory, there.halted.trans here.halted,
    there.lastHash.trans here.lastHash, there.signatures.trans here.signatures,
    there.inputs.trans here.inputs, there.outputs.trans here.outputs⟩

theorem State.Agrees.symm {s other : State} (agrees : s.Agrees other) : other.Agrees s :=
  ⟨agrees.program.symm, agrees.memory.symm, agrees.halted.symm, agrees.lastHash.symm,
    agrees.signatures.symm, agrees.inputs.symm, agrees.outputs.symm⟩

/-- The second state is the first one with further values under its stack; idle parts may differ. -/
structure State.CarriedBy (below : List Int) (s other : State) : Prop where
  stack : other.stack = s.stack ++ below
  counter : other.counter = s.counter
  agrees : s.Agrees other

theorem State.CarriedBy.eq_amid {below : List Int} {s other : State}
    (carried : s.CarriedBy below other) :
    other = (s.above below).amid other := by
  obtain ⟨stack, counter, program, memory, halted, lastHash, signatures, inputs, outputs⟩ := carried
  obtain ⟨⟩ := other
  simp only at stack counter program memory halted lastHash signatures inputs outputs
  subst stack counter program memory halted lastHash signatures inputs outputs
  rfl

theorem carriedBy_amid (below : List Int) (s other : State) :
    s.CarriedBy below ((s.above below).amid other) :=
  ⟨rfl, rfl, rfl, rfl, rfl, rfl, rfl, rfl, rfl⟩

/-! ## Runs that are carried -/

section Carried
variable (first second : Ambient) (inspector judge : Inspector) {below : List Int}
  (shown : ∀ top ∈ below.head?, Text.Writable top)
include shown

theorem step_carriedBy {command : Command} {s other next : State} {said : List String}
    (free : command.opcode.isAmbient = false) (carried : s.CarriedBy below other)
    (done : step first command s = .done next said) :
    ∃ reached lines, step second command other = .done reached lines ∧
      next.CarriedBy below reached := by
  rw [step_ambient first second free] at done
  obtain ⟨lines, lifted⟩ := step_lifts below second command s (fun _ _ => shown) next said done
  have quiet := step_amid second free (s.above below) other
  rw [← carried.eq_amid, lifted] at quiet
  obtain ⟨lines, reaches⟩ := done_of_silent quiet
  exact ⟨_, lines, reaches, carriedBy_amid below next other⟩

theorem turned_carriedBy {m carrier next : Machine} (selfContained : SelfContained m.state.program)
    (carried : m.state.CarriedBy below carrier.state)
    (turned : Turned first inspector m next none) :
    ∃ reached, Turned second judge carrier reached none ∧ SelfContained next.state.program ∧
      next.state.CarriedBy below reached.state := by
  have sameProgram := program_turned first inspector turned
  cases turned with
  | went command next said running inside fetched done =>
      have free := selfContained command (mem_of_fetch fetched)
      obtain ⟨reached, lines, reaches, stack, counter, agrees⟩ :=
        step_carriedBy first second shown free carried done
      rw [← carried.agrees.halted] at running
      rw [← carried.agrees.program, ← carried.counter] at inside fetched
      refine ⟨_, .went command reached lines running inside fetched reaches, ?_, stack, counter, ?_⟩
      · rw [sameProgram]
        exact selfContained
      · exact ⟨agrees.program, agrees.memory, agrees.halted, agrees.lastHash, agrees.signatures,
          agrees.inputs, agrees.outputs⟩

theorem turns_carriedBy (count : Nat) {m carrier reached : Machine}
    (selfContained : SelfContained m.state.program)
    (carried : m.state.CarriedBy below carrier.state)
    (ran : turns first inspector count m = some reached) :
    ∃ carrierReached, turns second judge count carrier = some carrierReached ∧
      reached.state.CarriedBy below carrierReached.state := by
  obtain ⟨carrierReached, carrierRan, _, carriedEnd⟩ :=
    turns_simulated first second inspector judge
      (fun related turned => turned_carriedBy first second inspector judge shown related.1
        related.2 turned)
      count ⟨selfContained, carried⟩ ran
  exact ⟨carrierReached, carrierRan, carriedEnd⟩

end Carried

/-! ## Calls and returns -/

section Ends
variable (ambient : Ambient) (inspector : Inspector) {m : Machine}
  (running : m.state.halted = false)
include running

/-- A call has put the place behind it on the stack. -/
theorem turns_call {target : Int} {more : List Int}
    (fetched : fetch m.state.program m.state.counter = .ok ⟨.call, target :: more⟩) :
    ∃ next, turns ambient inspector 1 m = some next ∧ m.state.Agrees next.state ∧
      next.state.counter = target ∧ next.state.stack = (m.state.counter + 1) :: m.state.stack := by
  have inside := (bounds_of_fetch fetched).2.1
  exact ⟨_, turns_one ambient inspector (.went _ _ _ running inside fetched rfl),
    ⟨rfl, rfl, rfl, rfl, rfl, rfl, rfl⟩, rfl, rfl⟩

theorem turns_ret {place : Int} {rest args : List Int} (stack : m.state.stack = place :: rest)
    (fetched : fetch m.state.program m.state.counter = .ok ⟨.ret, args⟩) :
    ∃ next, turns ambient inspector 1 m = some next ∧ m.state.Agrees next.state ∧
      next.state.counter = place ∧ next.state.stack = rest := by
  have inside := (bounds_of_fetch fetched).2.1
  have done : step ambient ⟨.ret, args⟩ m.state =
      .done { m.state with stack := rest, counter := place } [] := by
    simp only [step, consume, stack]
  exact ⟨_, turns_one ambient inspector (.went _ _ _ running inside fetched done),
    ⟨rfl, rfl, rfl, rfl, rfl, rfl, rfl⟩, rfl, rfl⟩

end Ends

/-- Every place behind a command can be shown, in a program of any length that there can be. -/
theorem writable_behind {program : List Command} {counter : Int} {command : Command}
    (short : program.length < Text.tooLong)
    (fetched : fetch program counter = .ok command) :
    Text.Writable (counter + 1) := by
  obtain ⟨lower, upper, _⟩ := bounds_of_fetch fetched
  rw [Text.writable_iff]
  exact Nat.lt_of_le_of_lt (by omega) short

/-- Calls and returns are matched.  Let a machine stand at a call, on any stack and at any count of
cycles, and let another one with the same program, memory, buffers, hash and signatures stand at the
call's target with an empty stack.  If this one executes `count` commands without a fault, whatever
they are, and comes with an empty stack to a return, then the first one executes `count + 2`
commands without a fault and stands behind the call, with the stack that it had and with memory,
buffers, hash and signatures as the body has left them.  That the program is not too long, as no
program can be, is for a `debug` that shows the place behind the call. -/
theorem call_returns (first second : Ambient) (inspector judge : Inspector)
    (caller entered reached : Machine) (target : Int) (more args : List Int) (count : Nat)
    (selfContained : SelfContained caller.state.program)
    (short : caller.state.program.length < Text.tooLong)
    (calls : fetch caller.state.program caller.state.counter = .ok ⟨.call, target :: more⟩)
    (same : caller.state.Agrees entered.state) (atTarget : entered.state.counter = target)
    (bare : entered.state.stack = []) (ran : turns first inspector count entered = some reached)
    (running : reached.state.halted = false) (emptied : reached.state.stack = [])
    (returns : fetch reached.state.program reached.state.counter = .ok ⟨.ret, args⟩) :
    ∃ back, turns second judge (count + 2) caller = some back ∧
      caller.run second judge (caller.state.cycles + (count + 2 : Nat)) = (back, .limit) ∧
      back.state.counter = caller.state.counter + 1 ∧ back.state.stack = caller.state.stack ∧
      reached.state.Agrees back.state := by
  have callerRunning : caller.state.halted = false := by
    rw [← same.halted]
    exact running_of_turns first inspector count ran running
  obtain ⟨callee, entering, agrees, counter, stack⟩ := turns_call second judge callerRunning calls
  -- the callee has the return place and the caller's values under the stack that the body works on
  have carried :
      entered.state.CarriedBy ((caller.state.counter + 1) :: caller.state.stack) callee.state := by
    refine ⟨?_, counter.trans atTarget.symm, same.symm.trans agrees⟩
    rw [stack, bare, List.nil_append]
  obtain ⟨returning, ranBody, carriedEnd⟩ :=
    turns_carriedBy first second inspector judge (by simpa using writable_behind short calls) count
      (by rw [same.program]; exact selfContained) carried ran
  have returningStack :
      returning.state.stack = (caller.state.counter + 1) :: caller.state.stack := by
    rw [carriedEnd.stack, emptied, List.nil_append]
  have returningRuns : returning.state.halted = false := by
    rw [carriedEnd.agrees.halted]
    exact running
  rw [← carriedEnd.agrees.program, ← carriedEnd.counter] at returns
  obtain ⟨back, leaving, agreesBack, backCounter, backStack⟩ :=
    turns_ret second judge returningRuns returningStack returns
  have whole : turns second judge (count + 2) caller = some back := by
    rw [show count + 2 =
      1 + (count + 1) by omega, turns_add, entering, Option.bind_some, turns_add, ranBody,
      Option.bind_some, leaving]
  have backRuns : back.state.halted = false := by
    rw [agreesBack.halted]
    exact returningRuns
  exact ⟨back, whole, run_limit_of_turns second judge (count + 2) whole backRuns, backCounter,
    backStack, carriedEnd.agrees.trans agreesBack⟩

/-- A body with a loop of two rounds, each of which calls another body that stores a value; the
caller has two values on its stack and is in its hundredth cycle. -/
theorem call_returns_nested :
    let first : Ambient := ⟨fun _ => 0, fun _ => 0, fun _ => 0⟩
    let second : Ambient := ⟨fun _ => 1, fun _ => 2, fun _ => 3⟩
    let program : List Command :=
      [⟨.call, [2]⟩, ⟨.halt, []⟩, ⟨.push, [2]⟩, ⟨.call, [10]⟩, ⟨.push, [1]⟩, ⟨.sub, []⟩,
      ⟨.dup, []⟩, ⟨.jnz, [3]⟩, ⟨.pop, []⟩, ⟨.ret, []⟩, ⟨.push, [7]⟩, ⟨.store, [-1]⟩, ⟨.ret, []⟩]
    let caller : Machine := { state := { program, stack := [5, 6], cycles := 100 } }
    let entered : Machine := { state := { program, counter := 2 } }
    SelfContained program ∧ ∃ reached back, turns first none 18 entered = some reached ∧
      reached.state.counter = 9 ∧ turns second none 20 caller = some back ∧ back.state.counter = 1 ∧
      back.state.stack = [5, 6] ∧ reached.state.Agrees back.state := by
  intro first second program caller entered
  have selfContained : SelfContained program := by decide
  have short : program.length < Text.tooLong := Text.lt_tooLong (by decide)
  have finishes : ((turns first none 18 entered).map fun reached =>
      (reached.state.halted, reached.state.stack, reached.state.counter)) =
        some (false, [], 9) := by decide +kernel
  obtain ⟨reached, ran, shown⟩ := Option.map_eq_some_iff.mp finishes
  obtain ⟨running, emptied, counter⟩ : reached.state.halted = false ∧ reached.state.stack = [] ∧
      reached.state.counter = 9 := by simpa using shown
  have returns : fetch reached.state.program reached.state.counter = .ok ⟨.ret, []⟩ := by
    rw [program_turns first none 18 ran, counter]
    rfl
  obtain ⟨back, ranBack, _, counterBack, stackBack, agrees⟩ :=
    call_returns first second none none caller entered reached 2 [] [] 18 selfContained short rfl
      ⟨rfl, rfl, rfl, rfl, rfl, rfl, rfl⟩ rfl rfl ran running emptied returns
  exact ⟨selfContained, reached, back, ran, counter, ranBack, counterBack, stackBack, agrees⟩

end Zkvm.Machine
