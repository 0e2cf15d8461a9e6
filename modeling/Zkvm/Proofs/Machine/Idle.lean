import Zkvm.Proofs.Machine.Ambient

/-!
# What no command looks at

Registers, the stack pointer and the count of cycles are idle: no command writes them, and the only
ones whose outcome depends on them are those that ask the outside, by the number of the cycle.
`debug` prints that number and does nothing else with it.  So a command does the same in two states
that differ in idle parts alone.
-/
set_option autoImplicit false

namespace Zkvm.Machine

/-- The state with the idle parts of another one. -/
def State.amid (s other : State) : State :=
  { s with
    registers := other.registers, stackPointer := other.stackPointer, cycles := other.cycles }

def Outcome.amid (other : State) : Outcome → Outcome
  | .done next said => .done (next.amid other) said
  | .failed left fault => .failed (left.amid other) fault

/-- The outcome without the lines that are said. -/
def Outcome.silent : Outcome → Outcome
  | .done next _ => .done next []
  | .failed left fault => .failed left fault

theorem readCell_amid (s other : State) (address : Int) (rest : List Int) :
    readCell (s.amid other) address rest = (readCell s address rest).amid other := by
  unfold readCell
  split <;> rfl

theorem writeCell_amid (s other : State) (address value : Int) (rest : List Int) :
    writeCell (s.amid other) address value rest = (writeCell s address value rest).amid other := by
  unfold writeCell
  split <;> rfl

theorem divide_amid (opcode : Opcode) (fault : Fault) (f : Int → Int → Int) (s other : State) :
    divide opcode fault f (s.amid other) = (divide opcode fault f s).amid other := by
  unfold divide
  simp only [State.amid]
  split
  · split <;> rfl
  · rfl

/-- With other idle parts a command that asks nothing of the outside has the same outcome, but for
what it says. -/
theorem step_amid (ambient : Ambient) {command : Command} (free : command.opcode.isAmbient = false)
    (s other : State) :
    (step ambient command (s.amid other)).silent =
      ((step ambient command s).amid other).silent := by
  obtain ⟨opcode, args⟩ := command
  obtain ⟨registers, stack, pointer, memory, counter, program, halted, cycles, hash, signatures,
    inputs, outputs⟩ := s
  cases opcode with
  | time | rand | id => cases free
  | add | sub | mul | and | or | xor | shl | shr | eq | neq | lt | gt | lte | gte | swap | sign =>
      rcases stack with _ | ⟨_, _ | ⟨_, _⟩⟩ <;> rfl
  | not | pop | dup | ret | hash | write => cases stack <;> rfl
  | verify => rcases stack with _ | ⟨_, _ | ⟨_, _ | ⟨_, _⟩⟩⟩ <;> rfl
  | div | mod => exact congrArg Outcome.silent (divide_amid _ _ _ _ other)
  | assert | log | send | debug =>
      cases stack with
      | nil => rfl
      | cons a rest =>
          simp only [step, tell, consume, State.amid]
          split <;> rfl
  | load | mload =>
      cases args with
      | cons address others => exact congrArg Outcome.silent (readCell_amid _ other address stack)
      | nil =>
          cases stack with
          | nil => rfl
          | cons address rest => exact congrArg Outcome.silent (readCell_amid _ other address rest)
  | store | mstore =>
      rcases stack with _ | ⟨value, rest⟩
      · cases args <;> rfl
      · cases args with
        | cons address others =>
          exact congrArg Outcome.silent (writeCell_amid _ other address value rest)
        | nil =>
            cases rest with
            | nil => rfl
            | cons address rest =>
              exact congrArg Outcome.silent (writeCell_amid _ other address value rest)
  | push | jmp | call => cases args <;> rfl
  | jz | jnz => cases args <;> cases stack <;> rfl
  | read => cases inputs <;> rfl
  | halt | nop | recv => rfl

theorem done_of_silent {outcome : Outcome} {next : State} (quiet : outcome.silent = .done next []) :
    ∃ said, outcome = .done next said := by
  cases outcome with
  | done reached said =>
      cases quiet
      exact ⟨said, rfl⟩
  | failed left fault => cases quiet

end Zkvm.Machine
