import Zkvm.Machine.Step

/-!
# What one command leaves alone

Every operation works on the stack by a fixed amount: `stackEffect` gives the change of its depth,
which depends on the arguments only for reading and writing memory.  No operation touches the
registers, the stack pointer, the program or the count of cycles, and a failed one has done nothing
but take operands off the stack.  The lemmas follow the helpers of `step`; all later facts about
runs are derived from `step_frames`.
-/
set_option autoImplicit false

namespace Zkvm.Machine

/-- By how much a command changes the depth of the stack when it succeeds. -/
def stackEffect (command : Command) : Int :=
  match command.opcode with
  | .add | .sub | .mul | .div | .mod | .and | .or | .xor | .shl | .shr => -1
  | .eq | .neq | .lt | .gt | .lte | .gte | .sign => -1
  | .not | .swap | .hash | .jmp | .halt | .nop | .debug => 0
  | .load | .mload => if command.args.isEmpty then 0 else 1
  | .store | .mstore => if command.args.isEmpty then -2 else -1
  | .push | .dup | .call | .read | .recv | .time | .rand | .id => 1
  | .pop | .jz | .jnz | .ret | .assert | .log | .write | .send => -1
  | .verify => -2

/-- The outcome of an operation that started in `s`.  A success has changed the depth of the stack
by `effect`; a failure has only taken operands. -/
def Outcome.Frames (s : State) (effect : Int) : Outcome → Prop
  | .done next _ =>
      next.registers = s.registers ∧ next.stackPointer = s.stackPointer ∧ next.program = s.program ∧
        next.cycles = s.cycles ∧ (next.stack.length : Int) = s.stack.length + effect
  | .failed left _ => ∃ taken, left = { s with stack := s.stack.drop taken }

/-- An operation that goes on to the next command is judged by the stack it leaves. -/
theorem frames_advance (s : State) (stack : List Int) (said : List String) (effect : Int)
    (depth : (stack.length : Int) = s.stack.length + effect) :
    (Outcome.done (s.advance stack) said).Frames s effect :=
  ⟨rfl, rfl, rfl, rfl, depth⟩

theorem frames_untouched (s : State) (fault : Fault) (effect : Int) :
    (Outcome.failed s fault).Frames s effect :=
  ⟨0, rfl⟩

theorem depth_below {s : State} {top : Int} {rest : List Int} (stack : s.stack = top :: rest) :
    (rest.length : Int) = s.stack.length + -1 := by
  rw [stack, List.length_cons]
  omega

theorem binary_frames (opcode : Opcode) (f : Int → Int → Int) (s : State) :
    (binary opcode f s).Frames s (-1) := by
  unfold binary
  split
  · next b a rest stack =>
      apply frames_advance
      simp only [stack, List.length_cons]
      omega
  · exact frames_untouched s _ _

theorem divide_frames (opcode : Opcode) (fault : Fault) (f : Int → Int → Int) (s : State) :
    (divide opcode fault f s).Frames s (-1) := by
  unfold divide
  split
  · next b a rest stack =>
      split
      · exact ⟨2, by rw [stack]; rfl⟩
      · apply frames_advance
        simp only [stack, List.length_cons]
        omega
  · exact frames_untouched s _ _

/-- An operation on the top of the stack is judged by what it goes on with. -/
theorem consume_frames (opcode : Opcode) (shortage : Shortage) (f : Int → List Int → Outcome)
    (s : State) (effect : Int)
    (goesOn : ∀ a rest, s.stack = a :: rest → (f a rest).Frames s effect) :
    (consume opcode shortage f s).Frames s effect := by
  unfold consume
  split
  · next a rest stack => exact goesOn a rest stack
  · exact frames_untouched s _ _

/-- Taking the top of the stack and pushing a row of values in its place. -/
theorem consume_advance_frames (opcode : Opcode) (shortage : Shortage) (s : State)
    (pushed : Int → List Int) (said : Int → List String) (effect : Int)
    (counted : ∀ a, ((pushed a).length : Int) = effect + 1) :
    (consume opcode shortage (fun a rest => .done (s.advance (pushed a ++ rest)) (said a)) s).Frames
      s effect := by
  apply consume_frames
  intro a rest stack
  apply frames_advance
  have count := counted a
  simp only [stack, List.length_append, List.length_cons]
  omega

theorem readCell_frames (s : State) (address : Int) (taken : Nat)
    (enough : taken ≤ s.stack.length) :
    (readCell s address (s.stack.drop taken)).Frames s (1 - taken) := by
  unfold readCell
  split
  · apply frames_advance
    simp only [List.length_cons, List.length_drop]
    omega
  · exact ⟨taken, rfl⟩

theorem writeCell_frames (s : State) (address value : Int) (taken : Nat)
    (enough : taken ≤ s.stack.length) :
    (writeCell s address value (s.stack.drop taken)).Frames s (-taken) := by
  unfold writeCell
  split
  · refine ⟨rfl, rfl, rfl, rfl, ?_⟩
    simp only [State.advance, List.length_drop]
    omega
  · exact ⟨taken, rfl⟩

theorem load_frames (args : List Int) (s : State) :
    (load args s).Frames s (if args.isEmpty then 0 else 1) := by
  cases args with
  | cons address others => exact readCell_frames s address 0 (Nat.zero_le _)
  | nil =>
      apply consume_frames
      intro address rest stack
      have taken := readCell_frames s address 1 (by simp [stack])
      rw [stack] at taken
      exact taken

theorem store_frames (args : List Int) (s : State) :
    (store args s).Frames s (if args.isEmpty then -2 else -1) := by
  cases args with
  | cons address others =>
      cases stack : s.stack with
      | nil =>
          simp only [store, stack]
          exact frames_untouched s _ _
      | cons value rest =>
          have taken := writeCell_frames s address value 1 (by simp [stack])
          simp only [store, stack] at taken ⊢
          exact taken
  | nil =>
      match stack : s.stack with
      | [] =>
          simp only [store, stack]
          exact frames_untouched s _ _
      | [value] =>
          simp only [store, stack]
          exact ⟨1, by rw [stack]; rfl⟩
      | value :: address :: rest =>
          have taken := writeCell_frames s address value 2 (by simp [stack])
          simp only [store, stack] at taken ⊢
          exact taken

theorem branch_frames (opcode : Opcode) (taken : Int → Bool) (args : List Int) (s : State) :
    (branch opcode taken args s).Frames s (-1) := by
  unfold branch
  split
  · exact frames_untouched s _ _
  · exact frames_untouched s _ _
  · next target others a rest stack => exact ⟨rfl, rfl, rfl, rfl, depth_below stack⟩

theorem tell_frames (opcode : Opcode) (heading : String) (s : State) :
    (tell opcode heading s).Frames s (-1) := by
  apply consume_frames
  intro a rest stack
  split
  · exact frames_advance s rest _ _ (depth_below stack)
  · exact ⟨1, by rw [stack]; rfl⟩

theorem verify_frames (s : State) : (verify s).Frames s (-2) := by
  unfold verify
  split
  · next key message signature rest stack =>
      refine ⟨rfl, rfl, rfl, rfl, ?_⟩
      simp only [State.advance, stack, List.length_cons]
      omega
  · exact frames_untouched s _ _

theorem sign_frames (s : State) : (sign s).Frames s (-1) := by
  unfold sign
  split
  · next key message rest stack =>
      apply frames_advance
      simp only [stack, List.length_cons]
      omega
  · exact frames_untouched s _ _

theorem frames_push (s : State) (value : Int) (said : List String) :
    (Outcome.done (s.advance (value :: s.stack)) said).Frames s 1 :=
  frames_advance s _ said 1 (by simp)

/-- Every command keeps to its frame: registers, stack pointer, program and cycles stay, the depth
of the stack changes by `stackEffect`, and a failure only takes operands. -/
theorem step_frames (ambient : Ambient) (command : Command) (s : State) :
    (step ambient command s).Frames s (stackEffect command) := by
  obtain ⟨opcode, args⟩ := command
  cases opcode with
  | add | sub | mul | and | or | xor | shl | shr | eq | neq | lt | gt | lte | gte =>
      exact binary_frames _ _ s
  | div | mod => exact divide_frames _ _ _ s
  | load | mload => exact load_frames args s
  | store | mstore => exact store_frames args s
  | jz | jnz => exact branch_frames _ _ args s
  | verify => exact verify_frames s
  | sign => exact sign_frames s
  | not => exact consume_advance_frames _ _ s (fun a => [word (-a - 1)]) _ 0 (fun _ => rfl)
  | pop => exact consume_advance_frames _ _ s (fun _ => []) _ (-1) (fun _ => rfl)
  | dup => exact consume_advance_frames _ _ s (fun a => [a, a]) _ 1 (fun _ => rfl)
  | log | send => exact tell_frames _ _ s
  | recv | time | rand | id => exact frames_push s _ _
  | nop => exact frames_advance s s.stack [] 0 (by simp)
  | halt => exact ⟨rfl, rfl, rfl, rfl, (Int.add_zero _).symm⟩
  | push =>
      cases args with
      | nil => exact frames_untouched s _ _
      | cons value others => exact frames_push s value []
  | swap =>
      simp only [step]
      split
      · next a b rest stack =>
          apply frames_advance
          simp [stack, stackEffect]
      · exact frames_untouched s _ _
  | jmp =>
      cases args with
      | nil => exact frames_untouched s _ _
      | cons target others => exact ⟨rfl, rfl, rfl, rfl, (Int.add_zero _).symm⟩
  | call =>
      cases args with
      | nil => exact frames_untouched s _ _
      | cons target others => exact ⟨rfl, rfl, rfl, rfl, Int.natCast_succ _⟩
  | ret =>
      apply consume_frames
      intro a rest stack
      exact ⟨rfl, rfl, rfl, rfl, depth_below stack⟩
  | hash =>
      apply consume_frames
      intro a rest stack
      exact ⟨rfl, rfl, rfl, rfl, by simp [stack, stackEffect, State.advance]⟩
  | write =>
      apply consume_frames
      intro a rest stack
      exact ⟨rfl, rfl, rfl, rfl, depth_below stack⟩
  | assert =>
      apply consume_frames
      intro a rest stack
      split
      · exact ⟨1, by rw [stack]; rfl⟩
      · exact frames_advance s rest [] _ (depth_below stack)
  | debug =>
      simp only [step]
      split
      · split
        · exact frames_advance s s.stack _ 0 (Int.add_zero _).symm
        · exact frames_untouched s _ _
      · exact frames_advance s s.stack _ 0 (Int.add_zero _).symm
  | read =>
      simp only [step]
      split
      · exact ⟨rfl, rfl, rfl, rfl, Int.natCast_succ _⟩
      · exact frames_push s 0 []

section Inversion
variable {ambient : Ambient} {command : Command} {s : State}

theorem step_done {next : State} {said : List String}
    (stepped : step ambient command s = .done next said) :
    next.registers = s.registers ∧ next.stackPointer = s.stackPointer ∧ next.program = s.program ∧
      next.cycles = s.cycles ∧ (next.stack.length : Int) =
        s.stack.length + stackEffect command := by
  have frames := step_frames ambient command s
  rw [stepped] at frames
  exact frames

theorem step_failed {left : State} {fault : Fault}
    (stepped : step ambient command s = .failed left fault) :
    ∃ taken, left = { s with stack := s.stack.drop taken } := by
  have frames := step_frames ambient command s
  rw [stepped] at frames
  exact frames

end Inversion

end Zkvm.Machine
