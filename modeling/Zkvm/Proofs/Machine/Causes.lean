import Zkvm.Proofs.Machine.Addressing
import Zkvm.Proofs.Machine.Aftermath

/-!
# Why a command fails

A command fails for one of six reasons, which can be read off the command and the stack before it:
it finds too few operands, it lacks its argument, it divides by zero, its address names no cell, it
asserts zero, or it prints a number with too many digits.  There is no seventh reason, and each of
the six is a failure.  What has been taken off the stack by then depends on the reason and, for a
number that is too long, on whether it was only to be looked at.
-/
set_option autoImplicit false

namespace Zkvm.Machine

/-- How many operands a command takes from the stack.  A load or a store takes its address from
there only if it has no argument. -/
def Command.arity (command : Command) : Nat :=
  match command.opcode with
  | .add | .sub | .mul | .div | .mod | .and | .or | .xor | .shl | .shr => 2
  | .eq | .neq | .lt | .gt | .lte | .gte | .swap | .sign => 2
  | .verify => 3
  | .not | .pop | .dup | .jz | .jnz | .ret | .hash | .assert | .log | .write | .send => 1
  | .load | .mload => if command.args.isEmpty then 1 else 0
  | .store | .mstore => if command.args.isEmpty then 2 else 1
  | .push | .jmp | .call | .halt | .nop | .debug | .read | .recv | .time | .rand | .id => 0

def Opcode.needsArgument : Opcode → Bool
  | .push | .jmp | .jz | .jnz | .call => true
  | _ => false

def Opcode.prints : Opcode → Bool
  | .log | .send | .debug => true
  | _ => false

namespace Command

def LacksArgument (command : Command) : Prop :=
  command.opcode.needsArgument = true ∧ command.args = []

def DividesByZero (command : Command) (stack : List Int) : Prop :=
  (command.opcode = .div ∨ command.opcode = .mod) ∧ 2 ≤ stack.length ∧ stack.head? = some 0

/-- The operands are there, but the address names no cell, from the front or from the back. -/
def Misaddresses (command : Command) (stack : List Int) : Prop :=
  ∃ address, command.address? stack = some address ∧ (65536 ≤ address ∨ address < -65536)

def AssertsZero (command : Command) (stack : List Int) : Prop :=
  command.opcode = .assert ∧ stack.head? = some 0

/-- The number that is to be printed is there, but it has too many digits. -/
def PrintsTooLong (command : Command) (stack : List Int) : Prop :=
  command.opcode.prints = true ∧ ∃ top ∈ stack.head?, ¬ Text.Writable top

/-- A store finds its value, but not its address below it. -/
def LosesValue (command : Command) (stack : List Int) : Prop :=
  command.opcode.isStore = true ∧ command.args = [] ∧ stack.length = 1

def Fails (command : Command) (stack : List Int) : Prop :=
  stack.length < command.arity ∨ command.LacksArgument ∨ command.DividesByZero stack ∨
    command.Misaddresses stack ∨ command.AssertsZero stack ∨ command.PrintsTooLong stack

end Command

/-- What a fault says about the command and its stack, with the number of operands that were
taken. -/
inductive Cause (command : Command) (stack : List Int) : Fault → Nat → Prop where
  /-- The argument is looked for first. -/
  | short (opcode : Opcode) (shortage : Shortage) (few : stack.length < command.arity)
      (argued : ¬ command.LacksArgument) (kept : ¬ command.LosesValue stack) :
      Cause command stack (.underflow opcode shortage) 0
  | valueLost (alone : command.LosesValue stack) :
      Cause command stack (.underflow .store .address) 1
  | unargued (opcode : Opcode) (lack : Lack) (lacks : command.LacksArgument) :
      Cause command stack (.lacks opcode lack) 0
  | divided (kind : command.opcode = .div) (zero : command.DividesByZero stack) :
      Cause command stack .divisionByZero 2
  | reduced (kind : command.opcode = .mod) (zero : command.DividesByZero stack) :
      Cause command stack .moduloByZero 2
  | past (address : Int) (accesses : command.address? stack = some address)
    (past : 65536 ≤ address) :
      Cause command stack (.invalidAddress address) command.arity
  | before (address : Int) (cause : OffRange) (accesses : command.address? stack = some address)
      (before : address < -65536) : Cause command stack (.offRange cause) command.arity
  | asserted (zero : command.AssertsZero stack) : Cause command stack .assertionFailed 1
  | unprinted (long : command.PrintsTooLong stack) :
      Cause command stack .unwritable (if command.opcode = .debug then 0 else 1)

/-- A success had no reason to fail, and a failure has its cause. -/
def Outcome.Explained (command : Command) (s : State) : Outcome → Prop
  | .done _ _ => ¬ command.Fails s.stack
  | .failed _ fault => Cause command s.stack fault (fault.taken command)

/-! ## Loads and stores -/

theorem address?_of_plain {command : Command} (notLoad : command.opcode.isLoad = false)
    (notStore : command.opcode.isStore = false) (stack : List Int) :
    command.address? stack = none := by
  simp [Command.address?, notLoad, write?_of_not_isStore notStore]

/-- A load or a store has no use for an argument that is not there, and does not look at its
operands. -/
theorem sound_of_access {command : Command}
    (access : command.opcode.isLoad = true ∨ command.opcode.isStore = true) (stack : List Int) :
    ¬ command.LacksArgument ∧ ¬ command.DividesByZero stack ∧ ¬ command.AssertsZero stack ∧
      ¬ command.PrintsTooLong stack := by
  obtain ⟨opcode, args⟩ := command
  cases opcode with
  | load | mload | store | mstore =>
      simp [Command.LacksArgument, Command.DividesByZero, Command.AssertsZero,
        Command.PrintsTooLong, Opcode.needsArgument, Opcode.prints]
  | _ => simp [Opcode.isLoad, Opcode.isStore] at access

theorem short_of_losesValue {command : Command} {stack : List Int}
    (alone : command.LosesValue stack) :
    stack.length < command.arity := by
  obtain ⟨opcode, args⟩ := command
  obtain ⟨kind, rfl, single⟩ := alone
  cases opcode with
  | store | mstore => simp [Command.arity, single]
  | _ => cases kind

section Accesses
variable {command : Command} {stack : List Int} {address : Int}
  (accesses : command.address? stack = some address)
include accesses

/-- A command with an address is a load or a store whose operands are there. -/
theorem arity_of_address? : command.arity = command.addressed ∧ command.arity ≤ stack.length := by
  obtain ⟨opcode, args⟩ := command
  cases opcode with
  | load | mload =>
      cases args with
      | cons first others => exact ⟨rfl, Nat.zero_le _⟩
      | nil =>
          cases stack with
          | nil => cases accesses
          | cons top rest => exact ⟨rfl, Nat.le_add_left _ _⟩
  | store | mstore =>
      rcases stack with _ | ⟨value, rest⟩
      · cases args <;> cases accesses
      · cases args with
        | cons first others => exact ⟨rfl, Nat.le_add_left _ _⟩
        | nil =>
            cases rest with
            | nil => cases accesses
            | cons second rest => exact ⟨rfl, Nat.le_add_left _ _⟩
  | _ =>
      rw [address?_of_plain rfl rfl] at accesses
      cases accesses

theorem access_of_address? : command.opcode.isLoad = true ∨ command.opcode.isStore = true := by
  cases load : command.opcode.isLoad with
  | true => exact .inl rfl
  | false =>
      cases store : command.opcode.isStore with
      | true => exact .inr rfl
      | false =>
          rw [address?_of_plain load store] at accesses
          cases accesses

/-- An access fails at most by its address. -/
theorem misaddresses_of_fails (fails : command.Fails stack) : command.Misaddresses stack := by
  have enough := (arity_of_address? accesses).2
  obtain ⟨argued, undivided, unasserted, unprinted⟩ :=
    sound_of_access (access_of_address? accesses) stack
  rcases fails with few | lacks | zero | outside | zero | long
  · omega
  · exact absurd lacks argued
  · exact absurd zero undivided
  · exact outside
  · exact absurd zero unasserted
  · exact absurd long unprinted

theorem not_fails_of_cell {use : OffRange} {found : Fin 65536}
    (located : cell use address = .ok found) :
    ¬ command.Fails stack := by
  intro fails
  obtain ⟨lower, upper, _⟩ := cell_eq_ok located
  obtain ⟨other, same, outside⟩ := misaddresses_of_fails accesses fails
  cases accesses.symm.trans same
  omega

theorem cause_of_cell {use : OffRange} {fault : Fault} (refused : cell use address = .error fault) :
    Cause command stack fault (fault.taken command) := by
  rw [taken_of_cell refused, ← (arity_of_address? accesses).1]
  by_cases past : 65536 ≤ address
  · rw [cell_past use past] at refused
    cases refused
    exact .past address accesses past
  · by_cases before : address < -65536
    · rw [cell_before use before] at refused
      cases refused
      exact .before address _ accesses before
    · obtain ⟨found, located, _⟩ := cell_within use (Int.not_lt.mp before) (Int.not_le.mp past)
      cases located.symm.trans refused

end Accesses

section Cells
variable {command : Command} {s : State} {address : Int}
  (accesses : command.address? s.stack = some address)
include accesses

theorem readCell_explained (rest : List Int) : (readCell s address rest).Explained command s := by
  unfold readCell
  split
  · next found located => exact not_fails_of_cell accesses located
  · next fault refused => exact cause_of_cell accesses refused

theorem writeCell_explained (value : Int) (rest : List Int) :
    (writeCell s address value rest).Explained command s := by
  unfold writeCell
  split
  · next found located => exact not_fails_of_cell accesses located
  · next fault refused => exact cause_of_cell accesses refused

end Cells

/-! ## One command -/

section Outcomes
variable {command : Command} {s : State}

/-- What neither loads nor stores goes well if it finds its operands and its argument, no zero where
none may be, and a number that can be printed. -/
theorem done_explained (notLoad : command.opcode.isLoad = false)
    (notStore : command.opcode.isStore = false) (enough : command.arity ≤ s.stack.length)
    (argued : command.opcode.needsArgument = true → command.args ≠ [])
    (nonzero : command.opcode = .div ∨ command.opcode = .mod ∨ command.opcode = .assert →
      s.stack.head? ≠ some 0)
    (printable : command.opcode.prints = true → ∀ top ∈ s.stack.head?, Text.Writable top)
    (next : State) (said : List String) : (Outcome.done next said).Explained command s := by
  rintro (few | ⟨needs, missing⟩ | ⟨kind, _, zero⟩ | ⟨address, accesses, _⟩ | ⟨kind, zero⟩
    | ⟨prints, top, here, long⟩)
  · omega
  · exact argued needs missing
  · rcases kind with kind | kind <;> exact nonzero (by simp [kind]) zero
  · rw [address?_of_plain notLoad notStore] at accesses
    cases accesses
  · exact nonzero (by simp [kind]) zero
  · exact long (printable prints top here)

theorem short_explained (few : s.stack.length < command.arity)
    (argued : command.opcode.needsArgument = true → command.args ≠ [])
    (kept : command.opcode.isStore = true → s.stack.length ≠ 1) {opcode : Opcode}
    {shortage : Shortage} (untaken : (Fault.underflow opcode shortage).taken command = 0)
    (left : State) :
    (Outcome.failed left (.underflow opcode shortage)).Explained command s := by
  rw [Outcome.Explained, untaken]
  apply Cause.short opcode shortage few
  · intro lacks
    exact argued lacks.1 lacks.2
  · intro alone
    exact kept alone.1 alone.2.2

end Outcomes

theorem step_explained (ambient : Ambient) (command : Command) (s : State) :
    (step ambient command s).Explained command s := by
  obtain ⟨opcode, args⟩ := command
  obtain ⟨registers, stack, pointer, memory, counter, program, halted, cycles, hash, signatures,
    inputs, outputs⟩ := s
  cases opcode with
  | add | sub | mul | and | or | xor | shl | shr | eq | neq | lt | gt | lte | gte | swap | sign =>
      rcases stack with _ | ⟨_, _ | ⟨_, _⟩⟩
      · apply short_explained <;>
          simp [Command.arity, Opcode.needsArgument, Opcode.isStore, Fault.taken]
      · apply short_explained <;>
          simp [Command.arity, Opcode.needsArgument, Opcode.isStore, Fault.taken]
      · apply done_explained rfl rfl <;> simp [Command.arity, Opcode.needsArgument, Opcode.prints]
  | not | pop | dup | ret | hash | write =>
      cases stack with
      | nil => apply short_explained <;>
        simp [Command.arity, Opcode.needsArgument, Opcode.isStore, Fault.taken]
      | cons a rest =>
        apply done_explained rfl rfl <;> simp [Command.arity, Opcode.needsArgument, Opcode.prints]
  | log | send =>
      cases stack with
      | nil => apply short_explained <;>
        simp [Command.arity, Opcode.needsArgument, Opcode.isStore, Fault.taken]
      | cons a rest =>
          simp only [step, tell, consume]
          split
          · next writable => apply done_explained rfl rfl <;>
              simp [Command.arity, Opcode.needsArgument, writable]
          · next long => exact .unprinted ⟨rfl, a, rfl, long⟩
  | verify =>
      rcases stack with _ | ⟨_, _ | ⟨_, _ | ⟨_, _⟩⟩⟩
      · apply short_explained <;>
          simp [Command.arity, Opcode.needsArgument, Opcode.isStore, Fault.taken]
      · apply short_explained <;>
          simp [Command.arity, Opcode.needsArgument, Opcode.isStore, Fault.taken]
      · apply short_explained <;>
          simp [Command.arity, Opcode.needsArgument, Opcode.isStore, Fault.taken]
      · apply done_explained rfl rfl <;> simp [Command.arity, Opcode.needsArgument, Opcode.prints]
  | div | mod =>
      rcases stack with _ | ⟨b, _ | ⟨a, rest⟩⟩
      · apply short_explained <;>
          simp [Command.arity, Opcode.needsArgument, Opcode.isStore, Fault.taken]
      · apply short_explained <;>
          simp [Command.arity, Opcode.needsArgument, Opcode.isStore, Fault.taken]
      · simp only [step, divide]
        split
        · next zero =>
            constructor
            · rfl
            · simp [Command.DividesByZero, zero]
        · next nonzero =>
            apply done_explained rfl rfl <;>
              simp [Command.arity, Opcode.needsArgument, Opcode.prints, nonzero]
  | assert =>
      cases stack with
      | nil => apply short_explained <;>
        simp [Command.arity, Opcode.needsArgument, Opcode.isStore, Fault.taken]
      | cons a rest =>
          simp only [step, consume]
          split
          · next zero => exact .asserted ⟨rfl, congrArg some zero⟩
          · next nonzero =>
              apply done_explained rfl rfl <;>
                simp [Command.arity, Opcode.needsArgument, Opcode.prints, nonzero]
  | load | mload =>
      cases args with
      | cons address others => exact readCell_explained rfl _
      | nil =>
          cases stack with
          | nil => apply short_explained <;>
            simp [Command.arity, Opcode.needsArgument, Opcode.isStore, Fault.taken]
          | cons address rest => exact readCell_explained rfl _
  | store | mstore =>
      rcases stack with _ | ⟨value, rest⟩
      · cases args <;> apply short_explained <;>
          simp [Command.arity, Opcode.needsArgument, Opcode.isStore, Fault.taken]
      · cases args with
        | cons address others => exact writeCell_explained rfl _ _
        | nil =>
            cases rest with
            | nil => exact .valueLost ⟨rfl, rfl, rfl⟩
            | cons address rest => exact writeCell_explained rfl _ _
  | push | jmp | call =>
      cases args with
      | nil => exact .unargued _ _ ⟨rfl, rfl⟩
      | cons value others =>
        apply done_explained rfl rfl <;> simp [Command.arity, Opcode.needsArgument, Opcode.prints]
  | jz | jnz =>
      cases args with
      | nil => exact .unargued _ _ ⟨rfl, rfl⟩
      | cons target others =>
          cases stack with
          | nil => apply short_explained <;>
            simp [Command.arity, Opcode.needsArgument, Opcode.isStore, Fault.taken]
          | cons a rest => apply done_explained rfl rfl <;>
            simp [Command.arity, Opcode.needsArgument, Opcode.prints]
  | debug =>
      cases stack with
      | nil =>
        apply done_explained rfl rfl <;> simp [Command.arity, Opcode.needsArgument, Opcode.prints]
      | cons top rest =>
          simp only [step]
          split
          · next writable => apply done_explained rfl rfl <;>
              simp [Command.arity, Opcode.needsArgument, writable]
          · next long => exact .unprinted ⟨rfl, top, rfl, long⟩
  | read => cases inputs <;> apply done_explained rfl rfl <;>
    simp [Command.arity, Opcode.needsArgument, Opcode.prints]
  | halt | nop | recv | time | rand | id =>
    apply done_explained rfl rfl <;> simp [Command.arity, Opcode.needsArgument, Opcode.prints]

/-! ## What has been taken -/

section Taken
variable {command : Command} {stack : List Int} {fault : Fault} {taken : Nat}
  (cause : Cause command stack fault taken)
include cause

theorem taken_of_dividesByZero (zero : command.DividesByZero stack) : taken = 2 := by
  obtain ⟨kind, enough, _⟩ := zero
  have two : command.arity = 2 := by
    rcases kind with kind | kind <;> simp [Command.arity, kind]
  cases cause with
  | divided | reduced => rfl
  | past | before => exact two
  | short opcode shortage few => omega
  | valueLost alone =>
    rcases kind with kind | kind <;> simp [Command.LosesValue, kind, Opcode.isStore] at alone
  | unargued opcode lack lacks =>
      rcases kind with kind | kind <;>
        simp [Command.LacksArgument, kind, Opcode.needsArgument] at lacks
  | asserted other => rcases kind with kind | kind <;> simp [Command.AssertsZero, kind] at other
  | unprinted long =>
    rcases kind with kind | kind <;> simp [Command.PrintsTooLong, Opcode.prints, kind] at long

theorem taken_of_assertsZero (zero : command.AssertsZero stack) : taken = 1 := by
  obtain ⟨kind, top⟩ := zero
  have one : command.arity = 1 := by simp [Command.arity, kind]
  cases cause with
  | asserted | valueLost => rfl
  | past | before => exact one
  | short opcode shortage few =>
      have missing : stack = [] := List.length_eq_zero_iff.mp (by omega)
      rw [missing] at top
      cases top
  | unargued opcode lack lacks => simp [Command.LacksArgument, kind, Opcode.needsArgument] at lacks
  | divided other | reduced other => cases kind.symm.trans other
  | unprinted long => simp [Command.PrintsTooLong, Opcode.prints, kind] at long

theorem taken_of_losesValue (alone : command.LosesValue stack) : taken = 1 := by
  obtain ⟨argued, undivided, _, unprinted⟩ := sound_of_access (.inr alone.1) stack
  cases cause with
  | valueLost | asserted => rfl
  | short opcode shortage few _ kept => exact absurd alone kept
  | unargued opcode lack lacks => exact absurd lacks argued
  | divided kind zero | reduced kind zero => exact absurd zero undivided
  | unprinted long => exact absurd long unprinted
  | past address accesses | before address _ accesses =>
      have enough := (arity_of_address? accesses).2
      have few := short_of_losesValue alone
      omega

theorem taken_of_misaddresses (outside : command.Misaddresses stack) : taken = command.arity := by
  obtain ⟨address, accesses, _⟩ := outside
  have enough := (arity_of_address? accesses).2
  obtain ⟨argued, undivided, unasserted, unprinted⟩ :=
    sound_of_access (access_of_address? accesses) stack
  cases cause with
  | past | before => rfl
  | short opcode shortage few => omega
  | valueLost alone =>
      have few := short_of_losesValue alone
      omega
  | unargued opcode lack lacks => exact absurd lacks argued
  | divided kind zero | reduced kind zero => exact absurd zero undivided
  | asserted zero => exact absurd zero unasserted
  | unprinted long => exact absurd long unprinted

theorem taken_of_printsTooLong (long : command.PrintsTooLong stack) :
    taken = if command.opcode = .debug then 0 else 1 := by
  obtain ⟨prints, top, here, _⟩ := long
  cases cause with
  | unprinted => rfl
  | asserted zero => simp [zero.1, Opcode.prints] at prints
  | divided kind | reduced kind => simp [kind, Opcode.prints] at prints
  | past address accesses | before address _ accesses =>
      have unprinted := (sound_of_access (access_of_address? accesses) stack).2.2.2
      exact absurd ⟨prints, top, here, ‹_›⟩ unprinted
  | valueLost alone =>
      have unprinted := (sound_of_access (.inr alone.1) stack).2.2.2
      exact absurd ⟨prints, top, here, ‹_›⟩ unprinted
  | unargued opcode lack lacks =>
      obtain ⟨opcode, args⟩ := command
      cases opcode <;>
        simp [Opcode.prints, Command.LacksArgument, Opcode.needsArgument] at prints lacks
  | short opcode shortage few =>
      obtain ⟨other, args⟩ := command
      have filled : stack ≠ [] := by
        rintro rfl
        cases here
      have positive := List.length_pos_iff.mpr filled
      cases other <;> simp [Opcode.prints, Command.arity] at prints few
      all_goals exact absurd few filled

theorem taken_eq_zero (divided : ¬ command.DividesByZero stack)
    (asserted : ¬ command.AssertsZero stack) (kept : ¬ command.LosesValue stack)
    (inside : ¬ command.Misaddresses stack) (printed : ¬ command.PrintsTooLong stack) :
    taken = 0 := by
  cases cause with
  | short | unargued => rfl
  | valueLost alone => exact absurd alone kept
  | divided kind zero | reduced kind zero => exact absurd zero divided
  | past address accesses past => exact absurd ⟨address, accesses, .inl past⟩ inside
  | before address _ accesses before => exact absurd ⟨address, accesses, .inr before⟩ inside
  | asserted zero => exact absurd zero asserted
  | unprinted long => exact absurd long printed

theorem fails_of_cause : command.Fails stack := by
  cases cause with
  | short opcode shortage few => exact .inl few
  | valueLost alone => exact .inl (short_of_losesValue alone)
  | unargued opcode lack lacks => exact .inr (.inl lacks)
  | divided kind zero | reduced kind zero => exact .inr (.inr (.inl zero))
  | past address accesses past => exact .inr (.inr (.inr (.inl ⟨address, accesses, .inl past⟩)))
  | before address _ accesses before =>
    exact .inr (.inr (.inr (.inl ⟨address, accesses, .inr before⟩)))
  | asserted zero => exact .inr (.inr (.inr (.inr (.inl zero))))
  | unprinted long => exact .inr (.inr (.inr (.inr (.inr long))))

end Taken

/-- When a command fails, and what it leaves.  Take any machine and any command, with any arguments.
The command fails if and only if the stack holds fewer operands than it takes, or it lacks its
argument, or it divides by zero, or its address names no cell, or it asserts zero, or it prints a
number with too many digits.  The fault says which.  A failure changes nothing but the stack, from
whose top it has taken both operands of a division by zero, the one of an assertion, the value of a
store that found no address, all operands of an access to no cell, the number that could not be
printed unless it was only to be looked at, and otherwise none. -/
theorem failure_and_remainder (ambient : Ambient) (inspector : Inspector) (m : Machine)
    (command : Command) :
    let stack := m.state.stack
    let result := execute ambient inspector command m
    (result.2.isSome = true ↔
      stack.length < command.arity ∨ command.LacksArgument ∨ command.DividesByZero stack ∨
        command.Misaddresses stack ∨ command.AssertsZero stack ∨ command.PrintsTooLong stack) ∧
    ∀ fault, result.2 = some fault → ∃ taken ≤ stack.length,
      Cause command stack fault taken ∧
      result.1 = { m with state := { m.state with stack := stack.drop taken } } ∧
      (command.DividesByZero stack → taken = 2) ∧
      (command.AssertsZero stack → taken = 1) ∧
      (command.LosesValue stack → taken = 1) ∧
      (command.Misaddresses stack → taken = command.arity) ∧
      (command.PrintsTooLong stack → taken = if command.opcode = .debug then 0 else 1) ∧
      (¬ command.DividesByZero stack → ¬ command.AssertsZero stack → ¬ command.LosesValue stack →
        ¬ command.Misaddresses stack → ¬ command.PrintsTooLong stack → taken = 0) := by
  intro stack result
  have explained := step_explained ambient command m.state
  cases stepped : step ambient command m.state with
  | done next said =>
      rw [stepped] at explained
      have fine : result.2 = none := by simp only [result, execute, stepped]
      rw [fine]
      refine ⟨⟨?_, fun fails => absurd fails explained⟩, ?_⟩
      · intro failed
        cases failed
      · intro fault failed
        cases failed
  | failed left fault =>
      rw [stepped] at explained
      obtain ⟨enough, rfl⟩ := taken_of_step stepped
      have failed : result =
          ({ m with state := { m.state with stack := stack.drop (fault.taken command) } },
            some fault) := by
        simp only [result, stack, execute, stepped]
      rw [failed]
      refine ⟨⟨fun _ => fails_of_cause explained, fun _ => rfl⟩, ?_⟩
      intro other same
      cases same
      exact ⟨fault.taken command, enough, explained, rfl, taken_of_dividesByZero explained,
        taken_of_assertsZero explained, taken_of_losesValue explained,
        taken_of_misaddresses explained, taken_of_printsTooLong explained, taken_eq_zero explained⟩

/-- The first five reasons are not all: a number with too many digits is not logged. -/
theorem long_number_unlogged :
    ¬ ∀ (ambient : Ambient) (inspector : Inspector) (m : Machine) (command : Command),
      (execute ambient inspector command m).2.isSome = true →
        m.state.stack.length < command.arity ∨ command.LacksArgument ∨
          command.DividesByZero m.state.stack ∨
          command.Misaddresses m.state.stack ∨ command.AssertsZero m.state.stack := by
  intro only
  let ambient : Ambient := ⟨fun _ => 0, fun _ => 0, fun _ => 0⟩
  let m : Machine := { state := { stack := [Text.tooLong] } }
  have fails : (execute ambient none ⟨.log, []⟩ m).2 = some .unwritable := by
    simp only [execute, step, tell, consume, m, if_neg Text.not_writable_tooLong]
  rcases only ambient none m ⟨.log, []⟩ (by rw [fails]; rfl) with few | lacks | zero
    | outside | zero
  · exact Nat.lt_irrefl 1 few
  · exact absurd lacks.1 (by decide)
  · exact absurd zero.1 (by decide)
  · obtain ⟨address, accesses, _⟩ := outside
    rw [address?_of_plain rfl rfl] at accesses
    cases accesses
  · exact absurd zero.1 (by decide)

end Zkvm.Machine
