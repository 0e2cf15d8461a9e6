import Zkvm.Proofs.WordMachine.Arithmetic

/-!
# One command on words and on integers

`State.widen` reads a state of the word machine as a state of the integer machine.  A command has
the same outcome on both sides of this reading, as long as the counter can be counted up by one: the
only place where the word machine would wrap round and the integer machine would not.
-/
set_option autoImplicit false

namespace Zkvm.WordMachine

open Machine (Opcode Shortage Ambient)

def Command.widen (command : Command) : Machine.Command :=
  ⟨command.opcode, command.args.map value⟩

def State.widen (s : State) : Machine.State where
  registers := List.replicate 16 0
  stack := s.stack.map value
  stackPointer := 0
  memory := s.memory.map value
  counter := value s.counter
  program := s.program.map Command.widen
  halted := s.halted
  cycles := s.cycles
  lastHash := s.lastHash.map value
  signatures := s.signatures.map fun (message, valid) => (value message, valid)
  inputs := s.inputs.map value
  outputs := s.outputs.map value

def Fault.widen : Fault → Machine.Fault
  | .underflow opcode shortage => .underflow opcode shortage
  | .lacks opcode lack => .lacks opcode lack
  | .divisionByZero => .divisionByZero
  | .moduloByZero => .moduloByZero
  | .invalidAddress address => .invalidAddress (value address)
  | .assertionFailed => .assertionFailed

def Outcome.widen : Outcome → Machine.Outcome
  | .done next said => .done next.widen said
  | .failed left fault => .failed left.widen fault.widen

section Fields
variable (s : State)

@[simp] theorem widen_stack : s.widen.stack = s.stack.map value := rfl
@[simp] theorem widen_memory : s.widen.memory = s.memory.map value := rfl
@[simp] theorem widen_counter : s.widen.counter = value s.counter := rfl
@[simp] theorem widen_program : s.widen.program = s.program.map Command.widen := rfl
@[simp] theorem widen_halted : s.widen.halted = s.halted := rfl
@[simp] theorem widen_cycles : s.widen.cycles = s.cycles := rfl
@[simp] theorem widen_inputs : s.widen.inputs = s.inputs.map value := rfl

end Fields

theorem value_succ {w : Word} (room : w.toNat + 1 < 4294967296) : value (w + 1) = value w + 1 := by
  have sum : (w + 1).toNat = (w.toNat + 1) % 4294967296 := BitVec.toNat_add w 1
  rw [value, sum, Nat.mod_eq_of_lt room, value, Int.natCast_add]
  rfl

section Families
variable {s : State} (room : s.counter.toNat + 1 < 4294967296)
include room

theorem widen_advance (stack : List Word) :
    (s.advance stack).widen = s.widen.advance (stack.map value) := by
  simp only [State.advance, State.widen, Machine.State.advance, value_succ room]

theorem binary_widen (opcode : Opcode) {f : Int → Int → Int} {g : Word → Word → Word}
    (agree : ∀ a b, f (value a) (value b) = value (g a b)) :
    Machine.binary opcode f s.widen = (binary opcode g s).widen := by
  unfold Machine.binary binary
  match stack : s.stack with
  | [] | [_] =>
      simp only [widen_stack, stack, List.map_cons, List.map_nil]
      rfl
  | b :: a :: rest =>
      simp only [widen_stack, stack, List.map_cons, Outcome.widen, widen_advance room, agree]

theorem divide_widen (opcode : Opcode) (fault : Fault) {f : Int → Int → Int}
    {g : Word → Word → Word} (agree : ∀ a b, f (value a) (value b) = value (g a b)) :
    Machine.divide opcode fault.widen f s.widen = (divide opcode fault g s).widen := by
  unfold Machine.divide divide
  match stack : s.stack with
  | [] | [_] =>
      simp only [widen_stack, stack, List.map_cons, List.map_nil]
      rfl
  | b :: a :: rest =>
      simp only [widen_stack, stack, List.map_cons]
      by_cases zero : b = 0
      · rw [if_pos zero, if_pos (value_eq_zero.mpr zero)]
        rfl
      · rw [if_neg zero, if_neg (mt value_eq_zero.mp zero)]
        simp only [Outcome.widen, widen_advance room, List.map_cons, agree]

omit room in
theorem consume_widen (opcode : Opcode) (shortage : Shortage) {f : Int → List Int → Machine.Outcome}
    {g : Word → List Word → Outcome}
    (agree : ∀ a rest, f (value a) (rest.map value) = (g a rest).widen) :
    Machine.consume opcode shortage f s.widen = (consume opcode shortage g s).widen := by
  unfold Machine.consume consume
  cases stack : s.stack with
  | nil =>
      simp only [widen_stack, stack, List.map_nil]
      rfl
  | cons a rest =>
      simp only [widen_stack, stack, List.map_cons]
      exact agree a rest

omit room in
/-- The cell of an address that is a word: there is one, or the address is invalid. -/
theorem cell_value (use : Machine.OffRange) (address : Word) :
    Machine.cell use (value address) =
      if inside : address.toNat < 65536 then .ok ⟨address.toNat, inside⟩
      else .error (.invalidAddress (value address)) := by
  unfold Machine.cell
  split
  · next past =>
      have outside : ¬ address.toNat < 65536 := by
        unfold value at past
        omega
      rw [dif_neg outside]
  · next inside =>
      have bound : address.toNat < 65536 := by
        unfold value at inside
        omega
      have least :
          ¬ (value address < Machine.leastPlace ∨ Machine.greatestPlace < value address) := by
        unfold value Machine.leastPlace Machine.greatestPlace
        omega
      have covered : ¬ (value address < -65536 ∨ 65536 ≤ value address) := by
        unfold value
        omega
      have place : (value address % 65536).toNat = address.toNat := by
        unfold value
        omega
      simp only [Machine.place, if_neg least, if_neg covered, place, dif_pos bound]
      rfl

theorem readCell_widen (address : Word) (rest : List Word) :
    Machine.readCell s.widen (value address) (rest.map value) =
      (readCell s address rest).widen := by
  unfold Machine.readCell readCell
  rw [cell_value]
  by_cases inside : address.toNat < 65536
  · simp only [dif_pos inside, Outcome.widen, widen_advance room, List.map_cons, widen_memory]
    simp [Vector.get]
  · simp only [dif_neg inside]
    rfl

theorem writeCell_widen (address v : Word) (rest : List Word) :
    Machine.writeCell s.widen (value address) (value v) (rest.map value) =
      (writeCell s address v rest).widen := by
  unfold Machine.writeCell writeCell
  rw [cell_value]
  by_cases inside : address.toNat < 65536
  · simp only [dif_pos inside, Outcome.widen, State.widen, State.advance, Machine.State.advance,
      value_succ room, Vector.map_set]
  · simp only [dif_neg inside]
    rfl

theorem load_widen (args : List Word) :
    Machine.load (args.map value) s.widen = (load args s).widen := by
  cases args with
  | nil => exact consume_widen .load .address (readCell_widen room)
  | cons address others => exact readCell_widen room address s.stack

theorem store_widen (args : List Word) :
    Machine.store (args.map value) s.widen = (store args s).widen := by
  unfold Machine.store store
  match stack : s.stack, args with
  | [], _ | [_], [] =>
      simp only [widen_stack, stack, List.map_cons, List.map_nil]
      rfl
  | v :: rest, address :: others =>
      simp only [widen_stack, stack, List.map_cons]
      exact writeCell_widen room address v rest
  | v :: address :: rest, [] =>
      simp only [widen_stack, stack, List.map_cons, List.map_nil]
      exact writeCell_widen room address v rest

theorem branch_widen (opcode : Opcode) {f : Int → Bool} {g : Word → Bool} (args : List Word)
    (agree : ∀ a, f (value a) = g a) :
    Machine.branch opcode f (args.map value) s.widen = (branch opcode g args s).widen := by
  unfold Machine.branch branch
  match args, stack : s.stack with
  | [], _ => rfl
  | target :: others, [] =>
      simp only [widen_stack, stack, List.map_cons, List.map_nil]
      rfl
  | target :: others, a :: rest =>
      simp only [stack, List.map_cons, agree, Outcome.widen, State.widen]
      cases g a with
      | true => rfl
      | false => simp only [Bool.false_eq_true, if_false, value_succ room]

omit room in
theorem recordSignature_widen (message : Word) (valid : Bool) (signatures : List (Word × Bool)) :
    Machine.recordSignature (value message) valid (signatures.map fun (m, v) => (value m, v)) =
      (recordSignature message valid signatures).map fun (m, v) => (value m, v) := by
  induction signatures with
  | nil => rfl
  | cons first rest ih =>
      obtain ⟨m, v⟩ := first
      simp only [List.map_cons, Machine.recordSignature, recordSignature]
      by_cases same : m = message
      · rw [if_pos same, if_pos (value_inj.mpr same), List.map_cons]
      · rw [if_neg same, if_neg (mt value_inj.mp same), List.map_cons, ih]

theorem verify_widen : Machine.verify s.widen = (verify s).widen := by
  unfold Machine.verify verify
  match stack : s.stack with
  | [] | [_] | [_, _] =>
      simp only [widen_stack, stack, List.map_cons, List.map_nil]
      rfl
  | key :: message :: signature :: rest =>
      simp only [stack, List.map_cons, bitXor_value, emod_two_value, value_beq_one, Outcome.widen,
        State.widen, State.advance, Machine.State.advance, value_succ room, recordSignature_widen]

theorem sign_widen : Machine.sign s.widen = (sign s).widen := by
  unfold Machine.sign sign
  match stack : s.stack with
  | [] | [_] =>
      simp only [widen_stack, stack, List.map_cons, List.map_nil]
      rfl
  | key :: message :: rest =>
      simp only [widen_stack, stack, List.map_cons, bitXor_value, Outcome.widen, widen_advance room,
        word_of_isWord (value_isWord _)]

theorem done_advance_widen (stack : List Word) (said : List String) :
    Machine.Outcome.done (s.widen.advance (stack.map value)) said =
      (Outcome.done (s.advance stack) said).widen := by
  rw [Outcome.widen, widen_advance room]

/-- A command does to the numbers what it does to the words. -/
theorem step_widen (ambient : Ambient) (command : Command) :
    Machine.step ambient command.widen s.widen = (step ambient command s).widen := by
  obtain ⟨opcode, args⟩ := command
  cases opcode with
  | add => exact binary_widen room _ word_add
  | sub => exact binary_widen room _ word_sub
  | mul => exact binary_widen room _ word_mul
  | div => exact divide_widen room _ .divisionByZero fdiv_value
  | mod => exact divide_widen room _ .moduloByZero fmod_value
  | and => exact binary_widen room _ bitAnd_value
  | or => exact binary_widen room _ bitOr_value
  | xor => exact binary_widen room _ bitXor_value
  | shl => exact binary_widen room _ shiftLeft_value
  | shr => exact binary_widen room _ shiftRight_value
  | eq => exact binary_widen room _ truth_eq
  | neq => exact binary_widen room _ truth_neq
  | lt => exact binary_widen room _ truth_lt
  | gt => exact binary_widen room _ fun a b => truth_lt b a
  | lte => exact binary_widen room _ truth_le
  | gte => exact binary_widen room _ fun a b => truth_le b a
  | load | mload => exact load_widen room args
  | store | mstore => exact store_widen room args
  | verify => exact verify_widen room
  | sign => exact sign_widen room
  | jz => exact branch_widen room _ args fun a => decide_eq_beq a 0
  | jnz => exact branch_widen room _ args fun a => congrArg not (decide_eq_beq a 0)
  | not =>
      apply consume_widen
      intro a rest
      rw [word_not]
      exact done_advance_widen room (~~~a :: rest) []
  | pop => exact consume_widen _ _ fun a rest => done_advance_widen room rest []
  | dup => exact consume_widen _ _ fun a rest => done_advance_widen room (a :: a :: rest) []
  | log | send =>
      apply consume_widen
      intro a rest
      rw [if_pos (writable_value a)]
      exact done_advance_widen room rest _
  | nop => exact done_advance_widen room s.stack []
  | recv => exact done_advance_widen room (42 :: s.stack) []
  | time | rand | id =>
      simp only [Machine.step, Command.widen, step, widen_cycles, ← value_narrow]
      exact done_advance_widen room (narrow _ :: s.stack) []
  | halt => rfl
  | push =>
      cases args with
      | nil => rfl
      | cons v others => exact done_advance_widen room (v :: s.stack) []
  | jmp =>
      cases args with
      | nil => rfl
      | cons target others => rfl
  | call =>
      cases args with
      | nil => rfl
      | cons target others =>
          simp only [Machine.step, Command.widen, step, List.map_cons, Outcome.widen, State.widen,
            value_succ room]
  | swap =>
      simp only [Machine.step, Command.widen, step]
      match stack : s.stack with
      | [] | [_] =>
          simp only [widen_stack, stack, List.map_cons, List.map_nil]
          rfl
      | a :: b :: rest =>
          simp only [widen_stack, stack, List.map_cons]
          exact done_advance_widen room (b :: a :: rest) []
  | ret => exact consume_widen _ _ fun a rest => rfl
  | hash =>
      apply consume_widen
      intro a rest
      simp only [word_residue, Outcome.widen, State.widen, State.advance, Machine.State.advance,
        value_succ room, List.map_cons, Option.map_some]
  | assert =>
      apply consume_widen
      intro a rest
      by_cases zero : a = 0
      · rw [if_pos zero, if_pos (value_eq_zero.mpr zero)]
        rfl
      · rw [if_neg zero, if_neg (mt value_eq_zero.mp zero)]
        exact done_advance_widen room rest []
  | write =>
      apply consume_widen
      intro a rest
      simp only [Outcome.widen, State.widen, State.advance, Machine.State.advance, value_succ room,
        List.map_append, List.map_cons, List.map_nil]
  | debug =>
      simp only [Machine.step, Command.widen, step]
      cases stack : s.stack with
      | nil =>
          simp only [widen_stack, stack, List.map_nil]
          exact done_advance_widen room [] []
      | cons top rest =>
          simp only [widen_stack, stack, List.map_cons, widen_cycles, if_pos (writable_value top)]
          exact done_advance_widen room (top :: rest) _
  | read =>
      simp only [Machine.step, Command.widen, step]
      cases inputs : s.inputs with
      | nil =>
          simp only [widen_inputs, inputs, List.map_nil]
          exact done_advance_widen room (0 :: s.stack) []
      | cons v later =>
          simp only [widen_inputs, inputs, List.map_cons]
          simp only [Outcome.widen, State.widen, State.advance, Machine.State.advance,
            value_succ room, List.map_cons]

end Families

end Zkvm.WordMachine
