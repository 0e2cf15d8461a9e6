import Zkvm.Proofs.Machine.Aftermath
import Zkvm.Proofs.Machine.Ambient
import Zkvm.Proofs.Machine.Parsing
import Zkvm.Proofs.Machine.Resumption

/-!
# Straight lines

A program in which nothing jumps, halts or asks the outside is executed from its first command to
its last, and what a command does does not depend on where it stands.  So the run of such a program
is a `sweep` of its commands, a sweep of two lines on end is one sweep after the other, and a
program may be cut in two that are loaded one after the other.
-/
set_option autoImplicit false

namespace Zkvm.Machine

/-- The operations that go on to the next command and ask nothing of the outside. -/
def Opcode.isStraight : Opcode → Bool
  | .jmp | .jz | .jnz | .call | .ret | .halt => false
  | .time | .rand | .id => false
  | _ => true

theorem Opcode.isAmbient_of_isStraight {opcode : Opcode} (straight : opcode.isStraight = true) :
    opcode.isAmbient = false := by
  cases opcode with
  | time | rand | id => cases straight
  | _ => rfl

/-! ## One command, wherever it stands -/

/-- The state with another program and another place in it. -/
def State.at (s : State) (program : List Command) (counter : Int) : State :=
  { s with program, counter }

/-- The outcome that the same command has elsewhere. -/
def Outcome.at (program : List Command) (counter : Int) : Outcome → Outcome
  | .done next said => .done (next.at program (counter + 1)) said
  | .failed left fault => .failed (left.at program counter) fault

section Places
variable (s : State) (program : List Command) (counter : Int)

theorem readCell_at (address : Int) (rest : List Int) :
    readCell (s.at program counter) address rest =
      (readCell s address rest).at program counter := by
  unfold readCell
  split <;> rfl

theorem writeCell_at (address value : Int) (rest : List Int) :
    writeCell (s.at program counter) address value rest =
      (writeCell s address value rest).at program counter := by
  unfold writeCell
  split <;> rfl

theorem divide_at (opcode : Opcode) (fault : Fault) (f : Int → Int → Int) :
    divide opcode fault f (s.at program counter) =
      (divide opcode fault f s).at program counter := by
  unfold divide
  simp only [State.at]
  split
  · split <;> rfl
  · rfl

theorem step_at (ambient : Ambient) {command : Command}
    (straight : command.opcode.isStraight = true) :
    step ambient command (s.at program counter) = (step ambient command s).at program counter := by
  obtain ⟨opcode, args⟩ := command
  obtain ⟨registers, stack, pointer, memory, place, old, halted, cycles, hash, signatures, inputs,
    outputs⟩ := s
  cases opcode with
  | jmp | jz | jnz | call | ret | halt | time | rand | id => cases straight
  | add | sub | mul | and | or | xor | shl | shr | eq | neq | lt | gt | lte | gte | swap | sign =>
      rcases stack with _ | ⟨_, _ | ⟨_, _⟩⟩ <;> rfl
  | not | pop | dup | hash | write => cases stack <;> rfl
  | verify => rcases stack with _ | ⟨_, _ | ⟨_, _ | ⟨_, _⟩⟩⟩ <;> rfl
  | div | mod => exact divide_at _ program counter _ _ _
  | assert | log | send | debug =>
      cases stack with
      | nil => rfl
      | cons a rest =>
          simp only [step, tell, consume, State.at]
          split <;> rfl
  | load | mload =>
      cases args with
      | cons address others => exact readCell_at _ program counter address stack
      | nil =>
          cases stack with
          | nil => rfl
          | cons address rest => exact readCell_at _ program counter address rest
  | store | mstore =>
      rcases stack with _ | ⟨value, rest⟩
      · cases args <;> rfl
      · cases args with
        | cons address others => exact writeCell_at _ program counter address value rest
        | nil =>
            cases rest with
            | nil => rfl
            | cons address rest => exact writeCell_at _ program counter address value rest
  | push => cases args <;> rfl
  | read => cases inputs <;> rfl
  | nop | recv => rfl

end Places

theorem counter_of_straight {ambient : Ambient} {command : Command} {s next : State}
    {said : List String} (straight : command.opcode.isStraight = true)
    (done : step ambient command s = .done next said) :
    next.counter = s.counter + 1 := by
  rw [counter_of_step done]
  obtain ⟨opcode, args⟩ := command
  cases opcode with
  | jmp | jz | jnz | call | ret | halt | time | rand | id => cases straight
  | _ => rfl

theorem halted_of_straight {ambient : Ambient} {command : Command} {s next : State}
    {said : List String} (straight : command.opcode.isStraight = true)
    (done : step ambient command s = .done next said) :
    next.halted = s.halted := by
  cases stepped done with
  | halted kind =>
      rw [kind] at straight
      cases straight
  | moved | hashed | verified | received | written | loaded | stored => rfl

/-! ## Sweeps -/

/-- The machine without its program, its place there and its trace. -/
def bare (m : Machine) : Machine :=
  { m with state := m.state.at [] 0, trace := #[] }

section Sweeps
variable (ambient : Ambient) (inspector : Inspector)

/-- Executes commands one after another up to the first that fails. -/
def sweep : List Command → Machine → Machine × Option Fault
  | [], m => (m, none)
  | command :: rest, m =>
    match execute ambient inspector command m with
    | (left, some fault) => (left, some fault)
    | (next, none) => sweep rest next

theorem sweep_failed {command : Command} {rest : List Command} {m left : Machine} {fault : Fault}
    (failed : execute ambient inspector command m = (left, some fault)) :
    sweep ambient inspector (command :: rest) m = (left, some fault) := by
  rw [sweep, failed]

theorem sweep_went {command : Command} {rest : List Command} {m next : Machine}
    (went : execute ambient inspector command m = (next, none)) :
    sweep ambient inspector (command :: rest) m = sweep ambient inspector rest next := by
  rw [sweep, went]

theorem sweep_append (first second : List Command) (m : Machine) :
    sweep ambient inspector (first ++ second) m =
      match sweep ambient inspector first m with
      | (left, some fault) => (left, some fault)
      | (next, none) => sweep ambient inspector second next := by
  induction first generalizing m with
  | nil => rfl
  | cons command rest ih =>
      cases result : execute ambient inspector command m with
      | mk next fault =>
          cases fault with
          | some fault => simp only [List.cons_append, sweep_failed ambient inspector result]
          | none => simp only [List.cons_append, sweep_went ambient inspector result, ih]

end Sweeps

/-- Machines that differ in place and trace alone execute a command alike, whatever the outside
would answer. -/
theorem execute_alike (first second : Ambient) (inspector : Inspector) {command : Command}
    (straight : command.opcode.isStraight = true) {m other : Machine}
    (alike : m.bare = other.bare) :
    (execute first inspector command m).1.bare = (execute second inspector command other).1.bare ∧
      (execute first inspector command m).2 = (execute second inspector command other).2 := by
  have bares : ∀ ambient (m : Machine),
      (execute ambient inspector command m).1.bare =
        (execute ambient inspector command m.bare).1.bare ∧
        (execute ambient inspector command m).2 = (execute ambient inspector command m.bare).2 := by
    intro ambient m
    have elsewhere : step ambient command m.bare.state = (step ambient command m.state).at [] 0 :=
      step_at m.state [] 0 ambient straight
    unfold execute
    rw [elsewhere]
    cases step ambient command m.state with
    | failed left fault => exact ⟨rfl, rfl⟩
    | done next said => exact ⟨rfl, rfl⟩
  have same :
      execute first inspector command m.bare = execute second inspector command other.bare := by
    unfold execute
    rw [alike, step_ambient first second (Opcode.isAmbient_of_isStraight straight)]
  rw [(bares first m).1, (bares first m).2, (bares second other).1, (bares second other).2, same]
  exact ⟨rfl, rfl⟩

theorem sweep_alike (first second : Ambient) (inspector : Inspector) {commands : List Command}
    (straight : ∀ command ∈ commands, command.opcode.isStraight = true) {m other : Machine}
    (alike : m.bare = other.bare) :
    (sweep first inspector commands m).1.bare = (sweep second inspector commands other).1.bare ∧
      (sweep first inspector commands m).2 = (sweep second inspector commands other).2 := by
  induction commands generalizing m other with
  | nil => exact ⟨alike, rfl⟩
  | cons command rest ih =>
      rw [List.forall_mem_cons] at straight
      obtain ⟨states, faults⟩ := execute_alike first second inspector straight.1 alike
      cases here : execute first inspector command m with
      | mk next fault =>
          cases there : execute second inspector command other with
          | mk otherNext otherFault =>
              rw [here, there] at states faults
              cases faults
              cases fault with
              | some fault =>
                  rw [sweep_failed first inspector here, sweep_failed second inspector there]
                  exact ⟨states, rfl⟩
              | none =>
                  rw [sweep_went first inspector here, sweep_went second inspector there]
                  exact ih straight.2 states

/-! ## The run of a straight line -/

/-- Why a run stops that had cycles enough for a line. -/
def stopAfter : Option Fault → Stop
  | some fault => .failed fault
  | none => .limit

section Runs
variable (ambient : Ambient) (inspector : Inspector)

theorem runFor_line (before : List Command) {commands : List Command}
    (straight : ∀ command ∈ commands, command.opcode.isStraight = true) {m : Machine}
    (running : m.state.halted = false) (program : m.state.program = before ++ commands)
    (counter : m.state.counter = before.length) :
    runFor ambient inspector commands.length m =
      ((sweep ambient inspector commands m).1,
        stopAfter (sweep ambient inspector commands m).2) := by
  induction commands generalizing before m with
  | nil =>
      rw [List.length_nil, runFor_zero, running]
      rfl
  | cons command rest ih =>
      rw [List.forall_mem_cons] at straight
      have fetched : fetch m.state.program m.state.counter = .ok command := by
        rw [counter]
        exact fetch_front (by simp [program])
      have inside : m.state.counter < m.state.program.length := by
        simp only [counter, program, List.length_append, List.length_cons]
        omega
      rw [List.length_cons, runFor_succ]
      cases result : step ambient command m.state with
      | failed left fault =>
          have failed :
              execute ambient inspector command m = ({ m with state := left }, some fault) := by
            rw [execute, result]
          rw [turn_of_turned ambient inspector
            (.failed command left fault running inside fetched result),
            sweep_failed ambient inspector failed]
          rfl
      | done next said =>
          have went : execute ambient inspector command m =
              (recorded inspector m command next said, none) := by
            rw [execute, result]
            rfl
          rw [turn_of_turned ambient inspector
            (.went command next said running inside fetched result),
            sweep_went ambient inspector went]
          obtain ⟨_, _, sameProgram, _, _⟩ := step_done result
          have running : next.halted = false := (halted_of_straight straight.1 result).trans running
          have program : next.program = (before ++ [command]) ++ rest := by
            simp [sameProgram, program]
          have counter : next.counter = (before ++ [command]).length := by
            simp [counter_of_straight straight.1 result, counter]
          exact ih (before ++ [command]) straight.2 running program counter

end Runs

/-! ## Loading a line -/

/-- Every name is that of an operation that goes straight on. -/
def StraightLine (source : Source) : Prop :=
  ∀ line ∈ source, (Opcode.ofSpelling? line.1).any Opcode.isStraight = true

instance (source : Source) : Decidable (StraightLine source) :=
  inferInstanceAs
    (Decidable (∀ line ∈ source, (Opcode.ofSpelling? line.1).any Opcode.isStraight = true))

theorem parse_straightLine {source : Source} (straight : StraightLine source) :
    ∃ commands, parse source = .ok commands ∧ commands.length = source.length ∧
      ∀ command ∈ commands, command.opcode.isStraight = true := by
  have known : ∀ line ∈ source, Known line.1 := by
    intro line member
    obtain ⟨opcode, found, _⟩ := (Option.any_eq_true _ _).mp (straight line member)
    exact known_iff.mpr ⟨opcode, found⟩
  obtain ⟨commands, spelled⟩ := exists_program known
  refine ⟨commands, parse_eq_ok_iff.mpr spelled, ?_, ?_⟩
  · have lengths := congrArg List.length spelled
    rwa [List.length_map, List.length_map] at lengths
  · intro command member
    obtain ⟨line, inSource, same⟩ := List.mem_map.mp (spelled ▸ List.mem_map_of_mem member)
    have found := (ofSpelling?_eq_some_iff.mpr same.symm).1
    have goesOn := straight line inSource
    rwa [found] at goesOn

theorem parse_append {p q : Source} {first second : List Command}
    (parsedFirst : parse p = .ok first) (parsedSecond : parse q = .ok second) :
    parse (p ++ q) = .ok (first ++ second) := by
  rw [parse_eq_ok_iff] at parsedFirst parsedSecond ⊢
  rw [List.map_append, List.map_append, parsedFirst, parsedSecond]

def loaded (m : Machine) (program : List Command) : Machine :=
  { m with state := { m.state with program, counter := 0, halted := false } }

theorem load?_of_parse (m : Machine) {source : Source} {program : List Command}
    (parsed : parse source = .ok program) :
    m.load? source = .ok (m.loaded program) := by
  rw [load?, parsed]
  rfl

/-- A machine that has not halted is loaded with nothing but a new place. -/
theorem bare_loaded {m : Machine} (running : m.state.halted = false) (program : List Command) :
    (m.loaded program).bare = m.bare := by
  simp [bare, loaded, State.at, running]

theorem error_stopAfter (m : Machine) (fault : Option Fault) :
    (m.report (stopAfter fault)).error = fault.map Fault.message ∧
      (m.report (stopAfter fault)).success = fault.isNone := by
  cases fault <;> exact ⟨rfl, rfl⟩

section Lines
variable (ambient : Ambient) (inspector : Inspector) {commands : List Command}
  (straight : ∀ command ∈ commands, command.opcode.isStraight = true) {m left : Machine}
    {fault : Option Fault}
  (swept : sweep ambient inspector commands (m.loaded commands) = (left, fault))
include straight swept

theorem runFor_loaded :
    runFor ambient inspector commands.length (m.loaded commands) = (left, stopAfter fault) := by
  rw [runFor_line ambient inspector [] straight rfl rfl rfl, swept]

/-- A call with cycles for just one line is the sweep of the line. -/
theorem call_loaded {limit : Int} (enough : limit = m.state.cycles + commands.length) :
    (m.loaded commands).call ambient inspector limit = (left, left.report (stopAfter fault)) := by
  have budget : (limit - (m.loaded commands).state.cycles).toNat = commands.length := by
    simp only [loaded]
    omega
  rw [call, run, budget, runFor_loaded ambient inspector straight swept]

/-- A line that is executed without a fault leaves a running machine as many cycles later. -/
theorem running_of_sweep (clean : fault = none) :
    left.state.halted = false ∧ left.state.cycles = m.state.cycles + commands.length := by
  subst clean
  have ran := runFor_loaded ambient inspector straight swept
  have fits := runFor_fits ambient inspector commands.length (m.loaded commands)
  rw [ran] at fits
  have counted := runFor_limit_cycles ambient inspector _ ran
  exact ⟨fits, counted⟩

end Lines

/-- A second line leads on from the first where both lead as one. -/
theorem sweep_in_parts (first second third : Ambient) (inspector : Inspector)
    {line more : List Command} (straight : ∀ command ∈ line, command.opcode.isStraight = true)
    (straightMore : ∀ command ∈ more, command.opcode.isStraight = true) {m reached : Machine}
    (swept : sweep first inspector line (m.loaded line) = (reached, none)) :
    (sweep second inspector more (reached.loaded more)).1.bare =
        (sweep third inspector (line ++ more) (m.loaded (line ++ more))).1.bare ∧
      (sweep second inspector more (reached.loaded more)).2 =
        (sweep third inspector (line ++ more) (m.loaded (line ++ more))).2 := by
  have running := (running_of_sweep first inspector straight swept rfl).1
  have sameStart : (m.loaded (line ++ more)).bare = (m.loaded line).bare := rfl
  obtain ⟨states, faults⟩ := sweep_alike third first inspector straight sameStart
  rw [swept] at states faults
  rw [sweep_append]
  cases result : sweep third inspector line (m.loaded (line ++ more)) with
  | mk other fault =>
      rw [result] at states faults
      cases faults
      exact sweep_alike second third inspector straightMore
        ((bare_loaded running more).trans states.symm)

/-- Straight lines can be loaded in parts.  Take any machine and two programs in which nothing
jumps, halts or asks the outside.  If the first one, with a limit of cycles for each of its
commands, reports no error, then the second one, loaded and run after it, comes to the same success
or error as the two programs loaded as one, and leaves the same stack, memory, buffers, hash,
signatures and cycles, and the same refusals and printed lines. -/
theorem straight_line_in_parts (first second third : Ambient) (inspector : Inspector) (m : Machine)
    (p q : Source) (straight : StraightLine p) (straightMore : StraightLine q) :
    ∃ part whole, m.load? p = .ok part ∧ m.load? (p ++ q) = .ok whole ∧
      let once := part.call first inspector (m.state.cycles + p.length)
      (once.2.error = none → ∃ rest, once.1.load? q = .ok rest ∧
        let continued := rest.call second inspector (m.state.cycles + p.length + q.length)
        let complete := whole.call third inspector (m.state.cycles + p.length + q.length)
        continued.2.success = complete.2.success ∧ continued.2.error = complete.2.error ∧
        continued.1.state.stack = complete.1.state.stack ∧
        continued.1.state.memory = complete.1.state.memory ∧
        continued.1.state.inputs = complete.1.state.inputs ∧
        continued.1.state.outputs = complete.1.state.outputs ∧
        continued.1.state.lastHash = complete.1.state.lastHash ∧
        continued.1.state.signatures = complete.1.state.signatures ∧
        continued.1.state.cycles = complete.1.state.cycles ∧
        continued.1.violations = complete.1.violations ∧ continued.1.said = complete.1.said) := by
  obtain ⟨line, parsed, length, straightLine⟩ := parse_straightLine straight
  obtain ⟨more, parsedMore, lengthMore, straightRest⟩ := parse_straightLine straightMore
  refine ⟨m.loaded line, m.loaded (line ++ more), load?_of_parse m parsed,
    load?_of_parse m (parse_append parsed parsedMore), ?_⟩
  intro once clean
  cases result : sweep first inspector line (m.loaded line) with
  | mk reached fault =>
      have ran : once = (reached, reached.report (stopAfter fault)) :=
        call_loaded first inspector straightLine result (by omega)
      rw [ran, (error_stopAfter reached fault).1, Option.map_eq_none_iff] at clean
      subst clean
      have cycles := (running_of_sweep first inspector straightLine result rfl).2
      obtain ⟨states, faults⟩ :=
        sweep_in_parts first second third inspector straightLine straightRest result
      refine ⟨reached.loaded more, by rw [ran]; exact load?_of_parse reached parsedMore, ?_⟩
      have straightAll : ∀ command ∈ line ++ more, command.opcode.isStraight = true :=
        List.forall_mem_append.mpr ⟨straightLine, straightRest⟩
      rw [call_loaded second inspector straightRest rfl (by omega),
        call_loaded third inspector straightAll rfl (by rw [List.length_append]; omega)]
      intro continued complete
      have success : continued.2.success = complete.2.success := by
        rw [(error_stopAfter _ _).2, faults, (error_stopAfter _ _).2]
      have error : continued.2.error = complete.2.error := by
        rw [(error_stopAfter _ _).1, faults, (error_stopAfter _ _).1]
      have same {α : Type} (part : Machine → α) : part continued.1.bare = part complete.1.bare :=
        congrArg part states
      exact ⟨success, error, same (·.state.stack), same (·.state.memory), same (·.state.inputs),
        same (·.state.outputs), same (·.state.lastHash), same (·.state.signatures),
        same (·.state.cycles), same (·.violations), same (·.said)⟩

/-- The first part pushes a number and reads another one; the second one divides, and fails, for the
input is zero. The machine had halted in its fifth cycle. -/
theorem straight_line_in_parts_dividing :
    let ambient : Ambient := ⟨fun _ => 0, fun _ => 0, fun _ => 0⟩
    let m : Machine := { state := { halted := true, cycles := 5, inputs := [0, 9] } }
    let p : Source := [("push", [7]), ("READ", [])]
    let q : Source := [("div", []), ("write", [])]
    StraightLine p ∧ StraightLine q ∧ ∃ part whole,
      m.load? p = .ok part ∧ m.load? (p ++ q) = .ok whole ∧
      (part.call ambient none 7).2.error = none ∧ ∃ rest,
        (part.call ambient none 7).1.load? q = .ok rest ∧
        (rest.call ambient none 9).2.error = some "Division by zero" ∧
        (whole.call ambient none 9).2.error = some "Division by zero" ∧
        (rest.call ambient none 9).1.state.inputs = (whole.call ambient none 9).1.state.inputs := by
  intro ambient m p q
  have straight : StraightLine p := by decide
  have straightMore : StraightLine q := by decide
  obtain ⟨part, whole, loadedPart, loadedWhole, composes⟩ :=
    straight_line_in_parts ambient ambient ambient none m p q straight straightMore
  have clean :
      ((m.load? p).toOption.map fun part => (part.call ambient none 7).2.error) = some none := by
    decide +kernel
  have fails : ((m.load? (p ++ q)).toOption.map fun whole => (whole.call ambient none 9).2.error) =
      some (some "Division by zero") := by
    decide +kernel
  rw [loadedPart] at clean
  rw [loadedWhole] at fails
  obtain ⟨rest, loadedRest, _, error, _, _, inputs, _⟩ := composes (Option.some.inj clean)
  exact ⟨straight, straightMore, part, whole, loadedPart, loadedWhole, Option.some.inj clean, rest,
    loadedRest, error.trans (Option.some.inj fails), Option.some.inj fails, inputs⟩

end Zkvm.Machine
