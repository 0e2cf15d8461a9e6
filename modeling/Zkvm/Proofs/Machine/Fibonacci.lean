import Mathlib.Data.Int.ModEq
import Mathlib.Tactic.Ring
import Zkvm.Proofs.Machine.Loading

/-!
# The loop of the Fibonacci program

At the head of the loop a counter lies on top of two numbers.  A round is meant to go from the two
numbers to the upper one and their sum.  But what it duplicates is the upper number, and the swap
that follows exchanges two copies of it: the upper number is added to itself, and the lower one is
never touched.  The jump that leaves the loop goes past the last command, so neither the log nor the
halt behind the loop is executed.
-/
set_option autoImplicit false

namespace Zkvm.Machine

/-! ## Pieces of a run -/

section Pieces
variable (ambient : Ambient) (inspector : Inspector)

/-- Every machine in the first state executes these commands, in this order, says nothing of its own
meanwhile, and is left in the second state. -/
def Passes (commands : List Command) (s t : State) : Prop :=
  ∀ m : Machine, m.state = s → ∃ left,
    turns ambient inspector commands.length m = some left ∧ left.state = t ∧
    left.trace.toList.map TraceEntry.command = m.trace.toList.map TraceEntry.command ++ commands ∧
    left.said.toList = m.said.toList ++
      commands.flatMap fun command => (inspector.examine command.opcode [] []).warnings

variable {ambient inspector} {first second : List Command} {s t u : State}

theorem Passes.append (here : Passes ambient inspector first s t)
    (there : Passes ambient inspector second t u) :
    Passes ambient inspector (first ++ second) s u := by
  intro m same
  obtain ⟨middle, went, reached, trace, said⟩ := here m same
  obtain ⟨left, wentOn, leftState, laterTrace, laterSaid⟩ := there middle reached
  refine ⟨left, ?_, leftState, ?_, ?_⟩
  · rw [List.length_append, turns_add, went]
    exact wentOn
  · rw [laterTrace, trace, List.append_assoc]
  · rw [laterSaid, said, List.flatMap_append, List.append_assoc]

/-- One command that says nothing, at a place counted from the front of the program. -/
theorem passes_one {place : Nat} {command : Command} {next : State} (running : s.halted = false)
    (counter : s.counter = place) (found : s.program[place]? = some command)
    (done : step ambient command s = .done next []) :
    Passes ambient inspector [command] s { next with cycles := next.cycles + 1 } := by
  rintro m rfl
  have inside : m.state.counter < m.state.program.length := by
    have below := (List.getElem?_eq_some_iff.mp found).1
    omega
  have fetched : fetch m.state.program m.state.counter = .ok command := by
    rw [counter]
    exact fetch_front found
  refine ⟨recorded inspector m command next [], ?_, rfl, ?_, ?_⟩
  · exact turns_one ambient inspector (.went command next [] running inside fetched done)
  · simp [recorded]
  · simp [recorded]

end Pieces

/-! ## The loop -/

def fibonacciCommands : List Command :=
  [⟨.push, [0]⟩, ⟨.push, [1]⟩, ⟨.push, [10]⟩,
    ⟨.dup, []⟩, ⟨.jz, [15]⟩,
    ⟨.swap, []⟩, ⟨.dup, []⟩, ⟨.swap, []⟩, ⟨.add, []⟩,
    ⟨.swap, []⟩, ⟨.push, [1]⟩, ⟨.sub, []⟩,
    ⟨.jmp, [3]⟩,
    ⟨.log, []⟩, ⟨.halt, []⟩]

theorem parse_fibonacciProgram : parse fibonacciProgram = .ok fibonacciCommands :=
  parse_eq_ok_iff.mpr (by decide)

def loopTest : List Command :=
  [⟨.dup, []⟩, ⟨.jz, [15]⟩]

def loopRound : List Command :=
  loopTest ++ [⟨.swap, []⟩, ⟨.dup, []⟩, ⟨.swap, []⟩, ⟨.add, []⟩, ⟨.swap, []⟩, ⟨.push, [1]⟩,
    ⟨.sub, []⟩, ⟨.jmp, [3]⟩]

/-- The state within the running program, at a place, with a stack and a number of cycles. -/
def State.within (s : State) (place : Nat) (stack : List Int) (cycles : Nat) : State :=
  { s with program := fibonacciCommands, halted := false, counter := place, stack, cycles }

section Loop
variable {ambient : Ambient} {inspector : Inspector} (s : State) (rest : List Int) (x y : Int)
  (cycles : Nat)

theorem passes_within {place next : Nat} {command : Command} {stack changed : List Int}
    (found : fibonacciCommands[place]? = some command)
    (done : step ambient command (s.within place stack cycles) =
      .done (s.within next changed cycles) []) :
    Passes ambient inspector [command] (s.within place stack cycles)
      (s.within next changed (cycles + 1)) :=
  passes_one rfl rfl found done

theorem passes_test (n : Int) :
    Passes ambient inspector loopTest (s.within 3 (n :: rest) cycles)
      (s.within (if n = 0 then 15 else 5) (n :: rest) (cycles + 2)) := by
  have again : Passes ambient inspector [⟨.dup, []⟩] (s.within 3 (n :: rest) cycles)
      (s.within 4 (n :: n :: rest) (cycles + 1)) := passes_within s cycles rfl rfl
  have jump : Passes ambient inspector [⟨.jz, [15]⟩] (s.within 4 (n :: n :: rest) (cycles + 1))
      (s.within (if n = 0 then 15 else 5) (n :: rest) (cycles + 2)) := by
    refine passes_within s (cycles + 1) rfl ?_
    by_cases zero : n = 0
    · simp [step, branch, State.within, zero]
    · simp [step, branch, State.within, zero]
  exact again.append jump

/-- The upper number is added to itself: the duplicate is of the same number that the swap before it
brought up. -/
theorem passes_doubling (n : Int) :
    Passes ambient inspector [⟨.swap, []⟩, ⟨.dup, []⟩, ⟨.swap, []⟩, ⟨.add, []⟩]
      (s.within 5 (n :: y :: rest) cycles)
        (s.within 9 (word (y + y) :: n :: rest) (cycles + 4)) := by
  have up : Passes ambient inspector [⟨.swap, []⟩] (s.within 5 (n :: y :: rest) cycles)
      (s.within 6 (y :: n :: rest) (cycles + 1)) := passes_within s cycles rfl rfl
  have again : Passes ambient inspector [⟨.dup, []⟩] (s.within 6 (y :: n :: rest) (cycles + 1))
      (s.within 7 (y :: y :: n :: rest) (cycles + 2)) := passes_within s _ rfl rfl
  have idle : Passes ambient inspector [⟨.swap, []⟩] (s.within 7 (y :: y :: n :: rest) (cycles + 2))
      (s.within 8 (y :: y :: n :: rest) (cycles + 3)) := passes_within s _ rfl rfl
  have sum : Passes ambient inspector [⟨.add, []⟩] (s.within 8 (y :: y :: n :: rest) (cycles + 3))
      (s.within 9 (word (y + y) :: n :: rest) (cycles + 4)) := passes_within s _ rfl rfl
  exact up.append (again.append (idle.append sum))

theorem passes_countdown (n : Int) :
    Passes ambient inspector [⟨.swap, []⟩, ⟨.push, [1]⟩, ⟨.sub, []⟩, ⟨.jmp, [3]⟩]
      (s.within 9 (y :: n :: rest) cycles)
        (s.within 3 (word (n - 1) :: y :: rest) (cycles + 4)) := by
  have up : Passes ambient inspector [⟨.swap, []⟩] (s.within 9 (y :: n :: rest) cycles)
      (s.within 10 (n :: y :: rest) (cycles + 1)) := passes_within s cycles rfl rfl
  have one : Passes ambient inspector [⟨.push, [1]⟩] (s.within 10 (n :: y :: rest) (cycles + 1))
      (s.within 11 (1 :: n :: y :: rest) (cycles + 2)) := passes_within s _ rfl rfl
  have less : Passes ambient inspector [⟨.sub, []⟩] (s.within 11 (1 :: n :: y :: rest) (cycles + 2))
      (s.within 12 (word (n - 1) :: y :: rest) (cycles + 3)) := passes_within s _ rfl rfl
  have back :
      Passes ambient inspector [⟨.jmp, [3]⟩] (s.within 12 (word (n - 1) :: y :: rest) (cycles + 3))
        (s.within 3 (word (n - 1) :: y :: rest) (cycles + 4)) := passes_within s _ rfl rfl
  exact up.append (one.append (less.append back))

theorem passes_round {n : Int} (more : n ≠ 0) :
    Passes ambient inspector loopRound (s.within 3 (n :: y :: rest) cycles)
      (s.within 3 (word (n - 1) :: word (y + y) :: rest) (cycles + 10)) := by
  have test : Passes ambient inspector loopTest (s.within 3 (n :: y :: rest) cycles)
      (s.within (if n = 0 then 15 else 5) (n :: y :: rest) (cycles + 2)) :=
        passes_test s (y :: rest) cycles n
  rw [if_neg more] at test
  exact test.append ((passes_doubling s rest y (cycles + 2) n).append
    (passes_countdown s rest (word (y + y)) (cycles + 6) n))

/-- The commands of a number of rounds and of the test that leaves the loop. -/
def loopRun (n : Nat) : List Command :=
  (List.replicate n loopRound).flatten ++ loopTest

theorem length_loopRun (n : Nat) : (loopRun n).length = 10 * n + 2 := by
  induction n with
  | zero => rfl
  | succ n ih =>
      rw [loopRun, List.replicate_succ, List.flatten_cons, List.append_assoc, List.length_append,
        ← loopRun, ih]
      change 10 + (10 * n + 2) = 10 * (n + 1) + 2
      omega

theorem word_double (n : Nat) (y : Int) : word (2 ^ n * word (y + y)) = word (2 ^ (n + 1) * y) := by
  have twice : 2 ^ (n + 1) * y = 2 ^ n * (y + y) := by ring
  rw [twice]
  exact Int.ModEq.mul_left (2 ^ n) (Int.mod_modEq (y + y) 4294967296)

/-- The loop runs down: each round doubles the number below the counter. -/
theorem passes_loop {n : Nat} (small : n < 4294967296) (reduced : word y = y) :
    Passes ambient inspector (loopRun n) (s.within 3 (n :: y :: rest) cycles)
      (s.within 15 (0 :: word (2 ^ n * y) :: rest) (cycles + (10 * n + 2))) := by
  induction n generalizing y cycles with
  | zero =>
      rw [pow_zero, one_mul, reduced]
      exact passes_test s (y :: rest) cycles 0
  | succ n ih =>
      have more : ((n + 1 : Nat) : Int) ≠ 0 := by omega
      have less : word ((n + 1 : Nat) - 1) = n := by
        rw [word]
        omega
      have round :
          Passes ambient inspector loopRound (s.within 3 ((n + 1 : Nat) :: y :: rest) cycles)
            (s.within 3 (n :: word (y + y) :: rest) (cycles + 10)) := by
        rw [← less]
        exact passes_round s rest y cycles more
      have reducedToo : word (word (y + y)) = word (y + y) := Int.emod_emod_of_dvd _ (dvd_refl _)
      have later := ih (word (y + y)) (cycles + 10) (by omega) reducedToo
      have total : cycles + 10 + (10 * n + 2) = cycles + (10 * (n + 1) + 2) := by omega
      rw [word_double, total] at later
      rw [loopRun, List.replicate_succ, List.flatten_cons, List.append_assoc]
      exact round.append later

end Loop

/-! ## What the program computes -/

section Within
variable {s : State} (program : s.program = fibonacciCommands) (running : s.halted = false)
include program running

theorem within_eq (place : Nat) (stack : List Int) (cycles : Nat) :
    s.within place stack cycles = { s with counter := place, stack, cycles } := by
  rw [State.within, ← program, ← running]

theorem eq_within {place : Nat} (counter : s.counter = place) :
    s = s.within place s.stack s.cycles := by
  rw [within_eq program running, ← counter]

end Within

/-- The place that the loop is left for is past the last command. -/
theorem turn_past (ambient : Ambient) (inspector : Inspector) {m : Machine} {s : State}
    {stack : List Int} {cycles : Nat} (state : m.state = s.within 15 stack cycles) :
    turn ambient inspector m = (m, some .ended) := by
  apply turn_ended
  · rw [state]
    rfl
  · rw [state]
    exact Int.le_refl 15

theorem opcode_of_mem_loopRun {n : Nat} {command : Command} (member : command ∈ loopRun n) :
    command.opcode ≠ .log ∧ command.opcode ≠ .halt := by
  have round : ∀ command ∈ loopRound, command.opcode ≠ .log ∧ command.opcode ≠ .halt := by decide
  rcases List.mem_append.mp member with inRounds | inTest
  · obtain ⟨line, replicated, inLine⟩ := List.mem_flatten.mp inRounds
    rw [(List.mem_replicate.mp replicated).2] at inLine
    exact round command inLine
  · exact round command (List.mem_append_left _ inTest)

/-- The loop of the Fibonacci program doubles.  Take any machine with the program at the head of the
loop, a counter `n` below `2 ^ 32` on top of its stack, and below it a word `y` and any number `x`.
If the counter is not zero, a round takes ten cycles and comes back to the head with `n - 1` on top
of `2 * y`, reduced to a word, and of `x` as it was; the sequence would be advanced only if `x` and
`y` were equal.  In all, `n` rounds and the test that leaves the loop are executed; they leave zero
on top of `2 ^ n * y`, reduced to a word, and of `x`, and the run ends past the program.  No log and
no halt is among the commands, so the machine is not halted, and without an inspector nothing has
been printed. -/
theorem fibonacci_loop_doubles (ambient : Ambient) (inspector : Inspector) (m : Machine) (n : Nat)
    (x y : Int) (rest : List Int) (program : parse fibonacciProgram = .ok m.state.program)
    (running : m.state.halted = false) (counter : m.state.counter = 3)
    (stack : m.state.stack = (n : Int) :: y :: x :: rest) (small : n < 4294967296) (low : 0 ≤ y)
    (high : y < 4294967296) :
    (n ≠ 0 → ∃ left, turns ambient inspector 10 m = some left ∧
      left.state = { m.state with
        stack := (n - 1) :: 2 * y % 4294967296 :: x :: rest
        cycles := m.state.cycles + 10 } ∧
      (left.state.stack = (n - 1 : Int) :: (x + y) % 4294967296 :: y :: rest ↔ x = y)) ∧
    ∃ left, turns ambient inspector (10 * n + 2) m = some left ∧
      left.state = { m.state with
        stack := 0 :: 2 ^ n * y % 4294967296 :: x :: rest
        counter := 15
        cycles := m.state.cycles + (10 * n + 2) } ∧
      turn ambient inspector left = (left, some .ended) ∧
      (∃ commands, left.trace.toList.map TraceEntry.command =
        m.trace.toList.map TraceEntry.command ++ commands ∧
        ∀ command ∈ commands, command.opcode ≠ .log ∧ command.opcode ≠ .halt) ∧
      (inspector = none → left.said = m.said) := by
  have commands : m.state.program = fibonacciCommands :=
    Except.ok.inj (program.symm.trans parse_fibonacciProgram)
  have atHead : m.state.counter = (3 : Nat) := counter
  have start := eq_within commands running atHead
  have reduced : word y = y := Int.emod_eq_of_lt low high
  rw [stack] at start
  constructor
  · intro more
    have nonzero : (n : Int) ≠ 0 := by omega
    have less : word (n - 1) = n - 1 := Int.emod_eq_of_lt (by omega) (by omega)
    have double : word (y + y) = 2 * y % 4294967296 := by rw [word, two_mul]
    have round :
        Passes ambient inspector loopRound
          (m.state.within 3 (n :: y :: x :: rest) m.state.cycles) _ :=
      passes_round m.state (x :: rest) y m.state.cycles nonzero
    obtain ⟨left, went, state, _⟩ := round m start
    rw [less, double] at state
    refine ⟨left, went, ?_, ?_⟩
    · rw [state, within_eq commands running, ← atHead]
    · rw [state, State.within]
      simp only [List.cons.injEq, and_true, true_and]
      constructor
      · exact fun same => same.2
      · rintro rfl
        exact ⟨by rw [two_mul], rfl⟩
  · have loop :
        Passes ambient inspector (loopRun n)
          (m.state.within 3 (n :: y :: x :: rest) m.state.cycles) _ :=
      passes_loop m.state (x :: rest) y m.state.cycles small reduced
    obtain ⟨left, went, state, trace, said⟩ := loop m start
    rw [length_loopRun] at went
    refine ⟨left, went, ?_, turn_past ambient inspector state,
      ⟨_, trace, fun _ => opcode_of_mem_loopRun⟩, ?_⟩
    · rw [state, within_eq commands running]
      rfl
    · rintro rfl
      have quiet :
          (loopRun n).flatMap
            (fun command => (Inspector.examine none command.opcode [] []).warnings) = [] := by
        simp [Inspector.examine]
      rw [quiet, List.append_nil] at said
      exact Array.toList_inj.mp said

/-- Three rounds from five double it to forty; the seven below is not touched. -/
theorem fibonacci_loop_doubles_five :
    let ambient : Ambient := ⟨fun _ => 0, fun _ => 0, fun _ => 0⟩
    let m : Machine :=
      { state := { program := fibonacciCommands, counter := 3, stack := [3, 5, 7] } }
    parse fibonacciProgram = .ok m.state.program ∧
      (∃ left, turns ambient none 10 m = some left ∧ left.state.stack = [2, 10, 7]) ∧
      ∃ left, turns ambient none 32 m = some left ∧ left.state.stack = [0, 40, 7] ∧
        turn ambient none left = (left, some .ended) ∧ left.said = m.said := by
  intro ambient m
  obtain ⟨round, left, went, state, ended, _, quiet⟩ :=
    fibonacci_loop_doubles ambient none m 3 7 5 []
      parse_fibonacciProgram rfl rfl rfl (by decide) (by decide) (by decide)
  obtain ⟨once, wentOnce, stateOnce, _⟩ := round (by decide)
  refine ⟨parse_fibonacciProgram, ⟨once, wentOnce, ?_⟩, left, went, ?_, ended, quiet rfl⟩
  · rw [stateOnce]
    rfl
  · rw [state]
    rfl

/-- From zero and one a round leads to zero and two, where the sequence has one and one; and with
the counter at zero nothing is logged and the machine does not halt. -/
theorem fibonacci_loop_astray :
    let ambient : Ambient := ⟨fun _ => 0, fun _ => 0, fun _ => 0⟩
    let m (n : Int) : Machine :=
      { state := { program := fibonacciCommands, counter := 3, stack := [n, 1, 0] } }
    (turns ambient none 10 (m 1)).map (fun left => (left.state.counter, left.state.stack)) =
      some (3, [0, 2, 0]) ∧
      ([0, 2, 0] : List Int) ≠ [1 - 1, (0 + 1) % 4294967296, 1] ∧
      ((m 0).run ambient none 1000).1.said = #[] ∧
      ((m 0).run ambient none 1000).1.state.halted = false := by
  decide +kernel

theorem passes_start {ambient : Ambient} {inspector : Inspector} (s : State) (stack : List Int)
    (cycles : Nat) :
    Passes ambient inspector [⟨.push, [0]⟩, ⟨.push, [1]⟩, ⟨.push, [10]⟩] (s.within 0 stack cycles)
      (s.within 3 (10 :: 1 :: 0 :: stack) (cycles + 3)) := by
  have lower : Passes ambient inspector [⟨.push, [0]⟩] (s.within 0 stack cycles)
      (s.within 1 (0 :: stack) (cycles + 1)) := passes_within s cycles rfl rfl
  have upper : Passes ambient inspector [⟨.push, [1]⟩] (s.within 1 (0 :: stack) (cycles + 1))
      (s.within 2 (1 :: 0 :: stack) (cycles + 2)) := passes_within s _ rfl rfl
  have count : Passes ambient inspector [⟨.push, [10]⟩] (s.within 2 (1 :: 0 :: stack) (cycles + 2))
      (s.within 3 (10 :: 1 :: 0 :: stack) (cycles + 3)) := passes_within s _ rfl rfl
  exact lower.append (upper.append count)

/-- The program, loaded into any machine and run with cycles enough, ends past its last command with
the tenth power of two in the place of the tenth Fibonacci number. -/
theorem run_fibonacciProgram (ambient : Ambient) (inspector : Inspector) (m : Machine) {limit : Int}
    (enough : m.state.cycles + 105 < limit) :
    ∃ ready left, m.load? fibonacciProgram = .ok ready ∧
      ready.run ambient inspector limit = (left, .ended) ∧
      left.state = { m.state with
        program := fibonacciCommands
        halted := false
        stack := 0 :: 1024 :: 0 :: m.state.stack
        counter := 15
        cycles := m.state.cycles + 105 } := by
  have loop :
      Passes ambient inspector (loopRun 10)
        (m.state.within 3 (10 :: 1 :: 0 :: m.state.stack) _) _ :=
    passes_loop m.state (0 :: m.state.stack) 1 (m.state.cycles + 3) (by decide) rfl
  obtain ⟨left, went, state, _⟩ :=
    (passes_start m.state m.state.stack m.state.cycles).append loop (m.loaded fibonacciCommands) rfl
  refine ⟨_, left, load?_of_parse m parse_fibonacciProgram, ?_, state⟩
  obtain ⟨budget, split⟩ : ∃ budget : Nat, (limit - m.state.cycles).toNat = 105 + (budget + 1) :=
    ⟨(limit - m.state.cycles).toNat - 106, by omega⟩
  have run := runFor_of_turns ambient inspector 105 (budget + 1) went
  rw [runFor_succ, turn_past ambient inspector state, ← split] at run
  exact run

end Zkvm.Machine
