import Zkvm.Proofs.Machine.Stepped

/-!
# What a command leaves

A command that succeeds has moved the counter on by one, unless it has jumped or halted.  One that
fails has left the counter alone, and has taken some operands off the stack that are not put back:
`Fault.taken` says how many.
-/
set_option autoImplicit false

namespace Zkvm.Machine

/-- Where a command jumps to, if it jumps: to its first argument, or for a return to the top of the
stack. -/
def Command.jump? (command : Command) (stack : List Int) : Option Int :=
  match command.opcode, command.args, stack with
  | .jmp, target :: _, _ => some target
  | .call, target :: _, _ => some target
  | .jz, target :: _, a :: _ => if a = 0 then some target else none
  | .jnz, target :: _, a :: _ => if a = 0 then none else some target
  | .ret, _, a :: _ => some a
  | _, _, _ => none

/-- Where the counter stands after a command that succeeds. -/
def Command.nextCounter (command : Command) (s : State) : Int :=
  (command.jump? s.stack).getD (if command.opcode = .halt then s.counter else s.counter + 1)

/-- How many operands have been taken when the address of a load or a store is refused: the value
that is to be stored, and the address if it comes from the stack. -/
def Command.addressed (command : Command) : Nat :=
  (if command.opcode.isStore then 1 else 0) + (if command.args.isEmpty then 1 else 0)

/-- How many operands a command has taken off the stack when it fails. -/
def Fault.taken (command : Command) : Fault → Nat
  | .divisionByZero | .moduloByZero => 2
  | .assertionFailed => 1
  | .invalidAddress _ | .offRange _ => command.addressed
  -- the value to be stored was there, the address was not
  | .underflow .store .address => 1
  | .underflow _ _ | .lacks _ _ => 0
  | .unwritable => if command.opcode = .debug then 0 else 1

/-- A success has gone on from its place, and a failure has taken its operands and changed nothing
else. -/
def Outcome.Leaves (command : Command) (s : State) : Outcome → Prop
  | .done next _ => next.counter = command.nextCounter s
  | .failed left fault =>
      fault.taken command ≤ s.stack.length ∧
        left = { s with stack := s.stack.drop (fault.taken command) }

theorem taken_of_cell {use : OffRange} {address : Int} {fault : Fault}
    (refused : cell use address = .error fault) (command : Command) :
    fault.taken command = command.addressed := by
  unfold cell at refused
  split at refused
  · cases refused
    rfl
  · cases found : place use address with
    | ok cell =>
        rw [found] at refused
        cases refused
    | error cause =>
        rw [found] at refused
        cases refused
        rfl

section Cells
variable {command : Command} {s : State} (moves : command.nextCounter s = s.counter + 1)
  (enough : command.addressed ≤ s.stack.length)
include moves enough

theorem readCell_leaves (address : Int) :
    (readCell s address (s.stack.drop command.addressed)).Leaves command s := by
  unfold readCell
  split
  · exact moves.symm
  · next fault refused =>
      rw [Outcome.Leaves, taken_of_cell refused command]
      exact ⟨enough, rfl⟩

theorem writeCell_leaves (address value : Int) :
    (writeCell s address value (s.stack.drop command.addressed)).Leaves command s := by
  unfold writeCell
  split
  · exact moves.symm
  · next fault refused =>
      rw [Outcome.Leaves, taken_of_cell refused command]
      exact ⟨enough, rfl⟩

end Cells

theorem leaves_untaken {command : Command} {s : State} {fault : Fault}
    (none : fault.taken command = 0) :
    (Outcome.failed s fault).Leaves command s := by
  rw [Outcome.Leaves, none]
  exact ⟨Nat.zero_le _, rfl⟩

theorem step_leaves (ambient : Ambient) (command : Command) (s : State) :
    (step ambient command s).Leaves command s := by
  obtain ⟨opcode, args⟩ := command
  obtain ⟨registers, stack, pointer, memory, counter, program, halted, cycles, hash, signatures,
    inputs, outputs⟩ := s
  cases opcode with
  | add | sub | mul | and | or | xor | shl | shr | eq | neq | lt | gt | lte | gte | swap | sign =>
      rcases stack with _ | ⟨_, _ | ⟨_, _⟩⟩
      · exact leaves_untaken rfl
      · exact leaves_untaken rfl
      · rfl
  | not | pop | dup | ret | hash | write =>
      cases stack with
      | nil => exact leaves_untaken rfl
      | cons a rest => rfl
  | log | send =>
      cases stack with
      | nil => exact leaves_untaken rfl
      | cons a rest =>
          simp only [step, tell, consume]
          split
          · rfl
          · exact ⟨Nat.le_add_left _ _, rfl⟩
  | verify =>
      rcases stack with _ | ⟨_, _ | ⟨_, _ | ⟨_, _⟩⟩⟩
      · exact leaves_untaken rfl
      · exact leaves_untaken rfl
      · exact leaves_untaken rfl
      · rfl
  | div | mod =>
      rcases stack with _ | ⟨b, _ | ⟨a, rest⟩⟩
      · exact leaves_untaken rfl
      · exact leaves_untaken rfl
      · simp only [step, divide]
        split
        · exact ⟨Nat.le_add_left _ _, rfl⟩
        · rfl
  | assert =>
      cases stack with
      | nil => exact leaves_untaken rfl
      | cons a rest =>
          simp only [step, consume]
          split
          · exact ⟨Nat.le_add_left _ _, rfl⟩
          · rfl
  | load | mload =>
      cases args with
      | cons address others => exact readCell_leaves rfl (Nat.zero_le _) address
      | nil =>
          cases stack with
          | nil => exact leaves_untaken rfl
          | cons address rest => exact readCell_leaves rfl (Nat.le_add_left _ _) address
  | store | mstore =>
      rcases stack with _ | ⟨value, rest⟩
      · cases args <;> exact leaves_untaken rfl
      · cases args with
        | cons address others => exact writeCell_leaves rfl (Nat.le_add_left _ _) address value
        | nil =>
            cases rest with
            | nil =>
                -- the value has been taken before the address was missed
                exact ⟨Nat.le_refl _, rfl⟩
            | cons address rest => exact writeCell_leaves rfl (Nat.le_add_left _ _) address value
  | push | jmp | call =>
      cases args with
      | nil => exact leaves_untaken rfl
      | cons value others => rfl
  | jz | jnz =>
      cases args with
      | nil => exact leaves_untaken rfl
      | cons target others =>
          cases stack with
          | nil => exact leaves_untaken rfl
          | cons a rest =>
              by_cases zero : a = 0 <;>
                simp [step, branch, Outcome.Leaves, Command.nextCounter, Command.jump?, zero]
  | debug =>
      cases stack with
      | nil => rfl
      | cons top rest =>
          simp only [step]
          split
          · rfl
          · exact leaves_untaken rfl
  | read => cases inputs <;> rfl
  | halt | nop | recv | time | rand | id => rfl

section Steps
variable {ambient : Ambient} {command : Command} {s : State}

theorem counter_of_step {next : State} {said : List String}
    (done : step ambient command s = .done next said) :
    next.counter = command.nextCounter s := by
  have leaves := step_leaves ambient command s
  rw [done] at leaves
  exact leaves

theorem taken_of_step {left : State} {fault : Fault}
    (failed : step ambient command s = .failed left fault) :
    fault.taken command ≤ s.stack.length ∧
      left = { s with stack := s.stack.drop (fault.taken command) } := by
  have leaves := step_leaves ambient command s
  rw [failed] at leaves
  exact leaves

end Steps

end Zkvm.Machine
