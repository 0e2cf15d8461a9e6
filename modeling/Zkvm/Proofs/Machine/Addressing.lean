import Zkvm.Proofs.Machine.Memory

/-!
# Which addresses are refused

A load or a store takes its address from its arguments or from the stack and hands it on as it is.
An address past the end of the memory is refused as invalid.  One before its front is not: as many
addresses as there are cells name the cells from the back, and those further off are refused, but as
places that are out of range.  A refused access leaves the memory as it was.
-/
set_option autoImplicit false

namespace Zkvm.Machine

/-- The address that a load or a store goes to, if its operands are there. -/
def Command.address? (command : Command) (stack : List Int) : Option Int :=
  if command.opcode.isLoad then command.source? stack else (command.write? stack).map Write.address

def Opcode.use (opcode : Opcode) : OffRange :=
  if opcode.isLoad then .read else .write

/-! ## Cells -/

theorem cell_past (use : OffRange) {address : Int} (past : 65536 ≤ address) :
    cell use address = .error (.invalidAddress address) := by
  rw [cell, if_pos past]

theorem cell_before (use : OffRange) {address : Int} (before : address < -65536) :
    cell use address = .error (.offRange (if address < leastPlace then .number else use)) := by
  have notPast : ¬ 65536 ≤ address := by omega
  have notGreatest : ¬ greatestPlace < address := by
    unfold greatestPlace
    omega
  rw [cell, if_neg notPast, place]
  by_cases least : address < leastPlace
  · rw [if_pos (.inl least), if_pos least]
    rfl
  · rw [if_neg (not_or.mpr ⟨least, notGreatest⟩), if_pos (.inl before), if_neg least]
    rfl

theorem cell_within (use : OffRange) {address : Int} (lower : -65536 ≤ address)
    (upper : address < 65536) :
    ∃ found, cell use address = .ok found ∧ (found : Int) = address % 65536 := by
  cases located : cell use address with
  | ok found => exact ⟨found, rfl, (cell_eq_ok located).2.2⟩
  | error fault =>
      unfold cell place leastPlace greatestPlace at located
      rw [if_neg (by omega), if_neg (by omega), if_neg (by omega)] at located
      cases located

/-! ## Loads and stores -/

section Accesses
variable {ambient : Ambient} {command : Command} {s : State} {address : Int}

theorem step_of_isLoad (kind : command.opcode.isLoad = true) :
    step ambient command s = load command.args s := by
  obtain ⟨opcode, args⟩ := command
  cases opcode with
  | load | mload => rfl
  | _ => cases kind

theorem step_of_isStore (kind : command.opcode.isStore = true) :
    step ambient command s = store command.args s := by
  obtain ⟨opcode, args⟩ := command
  cases opcode with
  | store | mstore => rfl
  | _ => cases kind

theorem load_eq_readCell (source : command.source? s.stack = some address) :
    load command.args s = readCell s address (if command.args.isEmpty then s.stack.tail
      else s.stack) := by
  obtain ⟨opcode, args⟩ := command
  obtain ⟨_, stack, _, _, _, _, _, _, _, _, _, _⟩ := s
  cases args with
  | cons first others =>
      cases source
      rfl
  | nil =>
      cases stack with
      | nil => cases source
      | cons top rest =>
          cases source
          rfl

theorem isStore_of_write? {stack : List Int} {write : Write}
    (writes : command.write? stack = some write) :
    command.opcode.isStore = true := by
  cases kind : command.opcode.isStore with
  | true => rfl
  | false =>
      rw [write?_of_not_isStore kind] at writes
      cases writes

theorem store_eq_writeCell {write : Write} (writes : command.write? s.stack = some write) :
    store command.args s =
      writeCell s write.address write.value
        (s.stack.drop (if command.args.isEmpty then 2 else 1)) := by
  have kind := isStore_of_write? writes
  obtain ⟨opcode, args⟩ := command
  obtain ⟨_, stack, _, _, _, _, _, _, _, _, _, _⟩ := s
  simp only [Command.write?, kind] at writes
  rcases stack with _ | ⟨value, rest⟩
  · cases args <;> cases writes
  · cases args with
    | cons first others =>
        cases writes
        rfl
    | nil =>
        cases rest with
        | nil => cases writes
        | cons second rest =>
            cases writes
            rfl

/-- An access whose operands are there is a load from its address or a store to it. -/
theorem access_cases (accesses : command.address? s.stack = some address) :
    (command.opcode.isLoad = true ∧ command.source? s.stack = some address) ∨
      (command.opcode.isLoad = false ∧ ∃ value,
        command.write? s.stack = some ⟨address, value⟩) := by
  unfold Command.address? at accesses
  split at accesses
  · next kind => exact .inl ⟨kind, accesses⟩
  · next kind =>
      obtain ⟨⟨target, value⟩, writes, rfl⟩ := Option.map_eq_some_iff.mp accesses
      exact .inr ⟨by simpa using kind, value, writes⟩

/-- An access to no cell fails for the reason that there is none. -/
theorem step_refused (accesses : command.address? s.stack = some address) {fault : Fault}
    (refused : cell command.opcode.use address = .error fault) :
    ∃ rest, step ambient command s = .failed { s with stack := rest } fault := by
  rcases access_cases accesses with ⟨kind, source⟩ | ⟨kind, value, writes⟩
  · rw [Opcode.use, if_pos kind] at refused
    rw [step_of_isLoad kind, load_eq_readCell source, readCell, refused]
    exact ⟨_, rfl⟩
  · rw [Opcode.use, kind, if_neg Bool.false_ne_true] at refused
    rw [step_of_isStore (isStore_of_write? writes), store_eq_writeCell writes, writeCell, refused]
    exact ⟨_, rfl⟩

theorem step_loads (kind : command.opcode.isLoad = true)
    (source : command.source? s.stack = some address) {found : Fin 65536}
    (located : cell command.opcode.use address = .ok found) :
    ∃ rest, step ambient command s = .done (s.advance (s.memory.get found :: rest)) [] := by
  rw [Opcode.use, if_pos kind] at located
  rw [step_of_isLoad kind, load_eq_readCell source, readCell, located]
  exact ⟨_, rfl⟩

theorem step_stores {value : Int} (kind : command.opcode.isLoad = false)
    (writes : command.write? s.stack = some ⟨address, value⟩) {found : Fin 65536}
    (located : cell command.opcode.use address = .ok found) :
    ∃ rest, step ambient command s =
      .done ({ s with memory := s.memory.set found.val value found.isLt }.advance rest) [] := by
  rw [Opcode.use, kind, if_neg Bool.false_ne_true] at located
  rw [step_of_isStore (isStore_of_write? writes), store_eq_writeCell writes, writeCell, located]
  exact ⟨_, rfl⟩

end Accesses

section Executed
variable (ambient : Ambient) (inspector : Inspector) {m : Machine} {command : Command}
  {address : Int} (accesses : command.address? m.state.stack = some address)
include accesses

theorem execute_refused {fault : Fault} (refused : cell command.opcode.use address = .error fault) :
    (execute ambient inspector command m).2 = some fault ∧
      (execute ambient inspector command m).1.state.memory = m.state.memory := by
  obtain ⟨rest, failed⟩ :
      ∃ rest, step ambient command m.state = .failed { m.state with stack := rest } fault :=
    step_refused accesses refused
  simp only [execute, failed, and_self]

theorem execute_granted {found : Fin 65536}
    (located : cell command.opcode.use address = .ok found) :
    (execute ambient inspector command m).2 = none ∧
      (command.opcode.isLoad = true →
        (execute ambient inspector command m).1.state.memory = m.state.memory ∧
        (execute ambient inspector command m).1.state.stack.head? =
          some (m.state.memory.get found)) ∧
      (∀ write, command.write? m.state.stack = some write →
        (execute ambient inspector command m).1.state.memory =
          m.state.memory.set found.val write.value found.isLt) := by
  rcases access_cases accesses with ⟨kind, source⟩ | ⟨kind, value, writes⟩
  · obtain ⟨rest, done⟩ : ∃ rest, step ambient command m.state = _ := step_loads kind source located
    refine ⟨by simp only [execute, done], fun _ => by simp [execute, done, State.advance], ?_⟩
    intro write writes
    rw [write?_of_not_isStore (Opcode.isStore_of_isLoad kind)] at writes
    cases writes
  · obtain ⟨rest, done⟩ : ∃ rest, step ambient command m.state = _ :=
      step_stores kind writes located
    refine ⟨by simp only [execute, done], fun load => ?_, ?_⟩
    · cases kind.symm.trans load
    · intro write wrote
      cases writes.symm.trans wrote
      simp only [execute, done, State.advance]

end Executed

/-- Which addresses are refused.  Take any machine and any load or store whose operands are there,
with its address among the arguments or on the stack.  An address past the end of memory is refused
as invalid, under its number unless that is too long to be written.  One that lies further before
the front than the memory is long is refused as out of range, or as no place at all.  A refused
access leaves the memory as it was.  Every other address, a negative one included, is accepted: a
load pushes the cell to which the address is congruent, and a store overwrites it. -/
theorem access_by_address (ambient : Ambient) (inspector : Inspector) (m : Machine)
    (command : Command) (address : Int) (accesses : command.address? m.state.stack = some address) :
    let result := execute ambient inspector command m
    (65536 ≤ address →
      result.2.map Fault.message =
          some (if Text.Writable address then s!"Invalid memory address: {address}"
            else Text.tooManyDigits) ∧
        result.1.state.memory = m.state.memory) ∧
    (address < -65536 →
      result.2.map Fault.message = some (if address < leastPlace then OffRange.number
        else command.opcode.use).text ∧
        result.1.state.memory = m.state.memory) ∧
    (-65536 ≤ address → address < 65536 →
      result.2 = none ∧ ∃ cell : Fin 65536, (cell : Int) = address % 65536 ∧
        (command.opcode.isLoad = true → result.1.state.memory = m.state.memory ∧
          result.1.state.stack.head? = some (m.state.memory.get cell)) ∧
        (∀ write, command.write? m.state.stack = some write →
          result.1.state.memory = m.state.memory.set cell.val write.value cell.isLt)) := by
  intro result
  refine ⟨?_, ?_, ?_⟩
  · intro past
    obtain ⟨fault, memory⟩ :=
      execute_refused ambient inspector accesses (cell_past command.opcode.use past)
    exact ⟨by rw [fault]; rfl, memory⟩
  · intro before
    obtain ⟨fault, memory⟩ :=
      execute_refused ambient inspector accesses (cell_before command.opcode.use before)
    exact ⟨by rw [fault]; rfl, memory⟩
  · intro lower upper
    obtain ⟨found, located, named⟩ := cell_within command.opcode.use lower upper
    obtain ⟨accepted, loads, stores⟩ := execute_granted ambient inspector accesses located
    exact ⟨accepted, found, named, loads, stores⟩

/-- A store at `-1` has its address among the arguments, a load at `65536` on the stack. -/
theorem access_by_address_ends :
    let ambient : Ambient := ⟨fun _ => 0, fun _ => 0, fun _ => 0⟩
    let m : Machine := { state := { stack := [65536, 7] } }
    (execute ambient none ⟨.store, [-1]⟩ m).2 = none ∧
      (execute ambient none ⟨.mload, []⟩ m).2.map Fault.message =
        some "Invalid memory address: 65536" := by
  intro ambient m
  have store := access_by_address ambient none m ⟨.store, [-1]⟩ (-1) rfl
  have load := access_by_address ambient none m ⟨.mload, []⟩ 65536 rfl
  exact ⟨(store.2.2 (by decide) (by decide)).1,
    (load.1 (by decide)).1.trans (congrArg some (if_pos (by decide)))⟩

/-- Not every address outside of the memory is refused: a store at `-1` succeeds. -/
theorem negative_address_accepted :
    ¬ ∀ (ambient : Ambient) (inspector : Inspector) (m : Machine) (command : Command)
      (address : Int),
      command.address? m.state.stack = some address → address < 0 ∨ 65536 ≤ address →
      (execute ambient inspector command m).2.map Fault.message =
        some s!"Invalid memory address: {address}" ∧
        (execute ambient inspector command m).1.state.memory = m.state.memory := by
  intro refused
  let ambient : Ambient := ⟨fun _ => 0, fun _ => 0, fun _ => 0⟩
  let m : Machine := { state := { stack := [7] } }
  have accepted : (execute ambient none ⟨.store, [-1]⟩ m).2 = none := rfl
  obtain ⟨fault, _⟩ := refused ambient none m ⟨.store, [-1]⟩ (-1) rfl (.inl (by decide))
  rw [accepted] at fault
  cases fault

end Zkvm.Machine
