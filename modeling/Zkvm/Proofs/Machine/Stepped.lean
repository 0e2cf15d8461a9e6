import Zkvm.Machine.Step

/-!
# What a command does besides the stack

`Stepped` says once what a command that succeeds can do to the parts of the state other than the
stack, and what it can say: most commands move on, six have a part of the state of their own, and
only a store writes to memory.  Facts about memory, buffers and printed lines are read off `stepped`
without opening `step` again.
-/
set_option autoImplicit false

namespace Zkvm.Machine

/-- What the lines of the machine itself begin with. -/
def ownMarks : List String :=
  ["DEBUG: cycle=", "LOG: ", "SEND: "]

/-- A line that the machine says of its own. -/
def Own (line : String) : Prop :=
  ∃ mark ∈ ownMarks, ∃ rest, line = mark ++ rest

def Opcode.isLoad : Opcode → Bool
  | .load | .mload => true
  | _ => false

def Opcode.isStore : Opcode → Bool
  | .store | .mstore => true
  | _ => false

structure Write where
  address : Int
  value : Int

/-- The address that a load reads: its first argument, or else the top of the stack. -/
def Command.source? (command : Command) (stack : List Int) : Option Int :=
  match command.args, stack with
  | address :: _, _ => some address
  | [], address :: _ => some address
  | [], [] => none

/-- What a store writes: the top of the stack, to its first argument or else to what lies below. -/
def Command.write? (command : Command) (stack : List Int) : Option Write :=
  match command.opcode.isStore, command.args, stack with
  | true, address :: _, value :: _ => some ⟨address, value⟩
  | true, [], value :: address :: _ => some ⟨address, value⟩
  | _, _, _ => none

theorem write?_of_not_isStore {command : Command} (other : command.opcode.isStore = false)
    (stack : List Int) : command.write? stack = none := by
  simp [Command.write?, other]

/-- Everything a command that succeeds can do, but for the values it leaves on the stack where it
only moves. -/
inductive Stepped (command : Command) (s : State) : State → List String → Prop where
  | moved (stack : List Int) (counter : Int) (said : List String)
    (notLoad : command.opcode.isLoad = false)
      (notStore : command.opcode.isStore = false) (own : ∀ line ∈ said, Own line) :
      Stepped command s { s with stack, counter } said
  | halted (kind : command.opcode = .halt) : Stepped command s { s with halted := true } []
  | hashed (value : Int) (rest : List Int) (kind : command.opcode = .hash)
    (taken : s.stack = value :: rest) :
      Stepped command s
        ({ s with lastHash := some (word (residue value)) }.advance
          (word (residue value) :: rest)) []
  | verified (key message signature valid : Int) (rest : List Int) (kind : command.opcode = .verify)
      (taken : s.stack = key :: message :: signature :: rest)
      (judged : valid = bitXor (bitXor signature message) key % 2) :
      Stepped command s
        ({ s with signatures := recordSignature message (valid == 1) s.signatures }.advance
          (valid :: rest)) []
  | received (value : Int) (later : List Int) (kind : command.opcode = .read)
      (buffered : s.inputs = value :: later) :
      Stepped command s ({ s with inputs := later }.advance (value :: s.stack)) []
  | written (value : Int) (rest : List Int) (kind : command.opcode = .write)
    (taken : s.stack = value :: rest) :
      Stepped command s ({ s with outputs := s.outputs ++ [value] }.advance rest) []
  | loaded (address : Int) (place : Fin 65536) (kind : command.opcode.isLoad = true)
      (source : command.source? s.stack = some address) (located : cell .read address = .ok place) :
      Stepped command s
        (s.advance (s.memory.get place :: if command.args.isEmpty then s.stack.tail else s.stack))
          []
  | stored (write : Write) (rest : List Int) (place : Fin 65536)
    (writes : command.write? s.stack = some write)
      (located : cell .write write.address = .ok place) :
      Stepped command s
        ({ s with memory := s.memory.set place.val write.value place.isLt }.advance rest) []

def Outcome.Shows (command : Command) (s : State) : Outcome → Prop
  | .done next said => Stepped command s next said
  | .failed _ _ => True

theorem consume_shows {command : Command} {opcode : Opcode} {shortage : Shortage}
    {f : Int → List Int → Outcome} {s : State}
    (goesOn : ∀ a rest, s.stack = a :: rest → (f a rest).Shows command s) :
    (consume opcode shortage f s).Shows command s := by
  unfold consume
  split
  · next a rest stack => exact goesOn a rest stack
  · trivial

section Moves
variable {command : Command} (notLoad : command.opcode.isLoad = false)
  (notStore : command.opcode.isStore = false)
include notLoad notStore

theorem shows_moved (s : State) (stack : List Int) (counter : Int) :
    (Outcome.done { s with stack, counter } []).Shows command s :=
  Stepped.moved stack counter [] notLoad notStore (fun _ member => by cases member)

theorem shows_said (s : State) (stack : List Int) (line : String) (own : Own line) :
    (Outcome.done (s.advance stack) [line]).Shows command s := by
  refine Stepped.moved stack (s.counter + 1) [line] notLoad notStore ?_
  intro said member
  rw [List.mem_singleton.mp member]
  exact own

theorem binary_shows (opcode : Opcode) (f : Int → Int → Int) (s : State) :
    (binary opcode f s).Shows command s := by
  unfold binary
  split
  · exact shows_moved notLoad notStore s _ _
  · trivial

theorem divide_shows (opcode : Opcode) (fault : Fault) (f : Int → Int → Int) (s : State) :
    (divide opcode fault f s).Shows command s := by
  unfold divide
  split
  · split
    · trivial
    · exact shows_moved notLoad notStore s _ _
  · trivial

theorem branch_shows (opcode : Opcode) (taken : Int → Bool) (args : List Int) (s : State) :
    (branch opcode taken args s).Shows command s := by
  unfold branch
  split
  · trivial
  · trivial
  · exact shows_moved notLoad notStore s _ _

theorem tell_shows (opcode : Opcode) {heading : String} (marked : heading ++ ": " ∈ ownMarks)
    (s : State) :
    (tell opcode heading s).Shows command s := by
  apply consume_shows
  intro a rest _
  split
  · exact shows_said notLoad notStore s _ _ ⟨heading ++ ": ", marked, toString a, rfl⟩
  · trivial

theorem sign_shows (s : State) : (sign s).Shows command s := by
  unfold sign
  split
  · exact shows_moved notLoad notStore s _ _
  · trivial

end Moves

theorem verify_shows {command : Command} (kind : command.opcode = .verify) (s : State) :
    (verify s).Shows command s := by
  unfold verify
  split
  · next key message signature rest taken =>
      exact Stepped.verified key message signature _ rest kind taken rfl
  · trivial

theorem load_shows {command : Command} (kind : command.opcode.isLoad = true) (s : State) :
    (load command.args s).Shows command s := by
  have reads : ∀ address, command.source? s.stack = some address →
      (readCell s address (if command.args.isEmpty then s.stack.tail else s.stack)).Shows
        command s := by
    intro address source
    unfold readCell
    cases located : cell .read address with
    | error fault => trivial
    | ok place => exact Stepped.loaded address place kind source located
  cases args : command.args with
  | cons address others =>
      have found := reads address (by simp [Command.source?, args])
      rwa [args] at found
  | nil =>
      apply consume_shows
      intro address rest stack
      have found := reads address (by simp [Command.source?, args, stack])
      rwa [args, stack] at found

theorem store_shows {command : Command} (kind : command.opcode.isStore = true) (s : State) :
    (store command.args s).Shows command s := by
  have writes : ∀ write rest, command.write? s.stack = some write →
      (writeCell s write.address write.value rest).Shows command s := by
    intro write rest writes
    unfold writeCell
    cases located : cell .write write.address with
    | error fault => trivial
    | ok place => exact Stepped.stored write rest place writes located
  unfold store
  split
  · trivial
  · next value rest address others stack args =>
      exact writes ⟨address, value⟩ rest (by simp [Command.write?, kind, args, stack])
  · next value address rest stack args =>
      exact writes ⟨address, value⟩ rest (by simp [Command.write?, kind, args, stack])
  · trivial

theorem step_shows (ambient : Ambient) (command : Command) (s : State) :
    (step ambient command s).Shows command s := by
  obtain ⟨opcode, args⟩ := command
  cases opcode with
  | add | sub | mul | and | or | xor | shl | shr | eq | neq | lt | gt | lte | gte =>
      exact binary_shows rfl rfl _ _ s
  | div | mod => exact divide_shows rfl rfl _ _ _ s
  | load | mload => exact load_shows rfl s
  | store | mstore => exact store_shows rfl s
  | jz | jnz => exact branch_shows rfl rfl _ _ args s
  | verify => exact verify_shows rfl s
  | sign => exact sign_shows rfl rfl s
  | not | pop | dup | ret => exact consume_shows fun _ _ _ => shows_moved rfl rfl s _ _
  | recv | time | rand | id | nop => exact shows_moved rfl rfl s _ _
  | halt => exact Stepped.halted rfl
  | push =>
      cases args with
      | nil => trivial
      | cons value others => exact shows_moved rfl rfl s _ _
  | swap =>
      simp only [step]
      split
      · exact shows_moved rfl rfl s _ _
      · trivial
  | jmp =>
      cases args with
      | nil => trivial
      | cons target others => exact shows_moved rfl rfl s _ _
  | call =>
      cases args with
      | nil => trivial
      | cons target others => exact shows_moved rfl rfl s _ _
  | hash => exact consume_shows fun value rest taken => Stepped.hashed value rest rfl taken
  | write => exact consume_shows fun value rest taken => Stepped.written value rest rfl taken
  | assert =>
      apply consume_shows
      intro a rest _
      split
      · trivial
      · exact shows_moved rfl rfl s _ _
  | debug =>
      simp only [step]
      split
      · next top rest _ =>
          split
          · refine shows_said rfl rfl s _ _ ⟨"DEBUG: cycle=", by decide, ?_⟩
            refine ⟨toString s.cycles ++ (", stack_top=" ++ toString top), ?_⟩
            rw [String.append_assoc, String.append_assoc]
            rfl
          · trivial
      · exact shows_moved rfl rfl s _ _
  | log | send => exact tell_shows rfl rfl _ (by decide) s
  | read =>
      simp only [step]
      split
      · next value later buffered => exact Stepped.received value later rfl buffered
      · exact shows_moved rfl rfl s _ _

theorem stepped {ambient : Ambient} {command : Command} {s next : State} {said : List String}
    (done : step ambient command s = .done next said) : Stepped command s next said := by
  have shows := step_shows ambient command s
  rw [done] at shows
  exact shows

/-- Whatever a command says is the machine's own. -/
theorem own_stepped {command : Command} {s next : State} {said : List String}
    (stepped : Stepped command s next said) : ∀ line ∈ said, Own line := by
  cases stepped with
  | moved stack counter said notLoad notStore own => exact own
  | halted | hashed | verified | received | written | loaded | stored =>
      intro line member
      cases member

end Zkvm.Machine
