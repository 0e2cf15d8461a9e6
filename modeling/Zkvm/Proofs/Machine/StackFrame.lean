import Zkvm.Proofs.Machine.Ambient

/-!
# The stack frame rule

A command looks at the operands that it takes and at nothing below them, however many they are and
wherever it goes from there.  So a run that succeeds on a stack succeeds on the same stack with more
values at its bottom: it goes the same way, leaves those values where they are and differs in
nothing but the depths that the trace records.  Only `debug` looks further, for it shows the top of
a stack that would have been empty: what is printed may differ, and there is a fault if the number
there has too many digits.
-/
set_option autoImplicit false

namespace Zkvm.Machine

def State.above (s : State) (below : List Int) : State :=
  { s with stack := s.stack ++ below }

def above (m : Machine) (below : List Int) : Machine :=
  { m with state := m.state.above below }

def TraceEntry.deepen (count : Nat) (entry : TraceEntry) : TraceEntry :=
  { entry with depth := entry.depth + count }

/-! ## One command -/

/-- If the first outcome is a success, the second one is the same success with more values under the
stack. -/
def Outcome.Lifts (below : List Int) (plain lifted : Outcome) : Prop :=
  ∀ next said, plain = .done next said → ∃ lines, lifted = .done (next.above below) lines

section Commands
variable (below : List Int)

theorem lifts_done (next : State) (said lines : List String) :
    Outcome.Lifts below (.done next said) (.done (next.above below) lines) := by
  intro reached lines' same
  cases same
  exact ⟨lines, rfl⟩

theorem lifts_failed (left : State) (fault : Fault) (lifted : Outcome) :
    Outcome.Lifts below (.failed left fault) lifted := by
  intro next said same
  cases same

theorem binary_lifts (opcode : Opcode) (f : Int → Int → Int) (s : State) :
    (binary opcode f s).Lifts below (binary opcode f (s.above below)) := by
  unfold binary
  split
  · next b a rest stack =>
      simp only [State.above, stack, List.cons_append]
      exact lifts_done below (s.advance (f a b :: rest)) [] []
  · exact lifts_failed below _ _ _

theorem divide_lifts (opcode : Opcode) (fault : Fault) (f : Int → Int → Int) (s : State) :
    (divide opcode fault f s).Lifts below (divide opcode fault f (s.above below)) := by
  unfold divide
  split
  · next b a rest stack =>
      simp only [State.above, stack, List.cons_append]
      by_cases zero : b = 0
      · rw [if_pos zero]
        exact lifts_failed below _ _ _
      · rw [if_neg zero, if_neg zero]
        exact lifts_done below (s.advance (f a b :: rest)) [] []
  · exact lifts_failed below _ _ _

/-- An operation on the top of the stack is lifted if what it goes on with is. -/
theorem consume_lifts (opcode : Opcode) (shortage : Shortage) (f lifted : Int → List Int → Outcome)
    (s : State) (goesOn : ∀ a rest, (f a rest).Lifts below (lifted a (rest ++ below))) :
    (consume opcode shortage f s).Lifts below (consume opcode shortage lifted (s.above below)) := by
  unfold consume
  split
  · next a rest stack =>
      simp only [State.above, stack, List.cons_append]
      exact goesOn a rest
  · exact lifts_failed below _ _ _

/-- Taking the top of the stack and going on with a row of values in its place. -/
theorem consume_advance_lifts (opcode : Opcode) (shortage : Shortage) (s : State)
    (pushed : Int → List Int) (said : Int → List String) :
    (consume opcode shortage (fun a rest => .done (s.advance (pushed a ++ rest)) (said a)) s).Lifts
      below
      (consume opcode shortage
        (fun a rest => .done ((s.above below).advance (pushed a ++ rest)) (said a))
          (s.above below)) := by
  apply consume_lifts
  intro a rest
  rw [← List.append_assoc]
  exact lifts_done below (s.advance (pushed a ++ rest)) _ _

theorem readCell_lifts (s : State) (address : Int) (rest : List Int) :
    (readCell s address rest).Lifts below (readCell (s.above below) address (rest ++ below)) := by
  unfold readCell
  cases cell .read address with
  | error fault => exact lifts_failed below _ _ _
  | ok place => exact lifts_done below (s.advance (s.memory.get place :: rest)) [] []

theorem writeCell_lifts (s : State) (address value : Int) (rest : List Int) :
    (writeCell s address value rest).Lifts below
      (writeCell (s.above below) address value (rest ++ below)) := by
  unfold writeCell
  cases cell .write address with
  | error fault => exact lifts_failed below _ _ _
  | ok place =>
      exact lifts_done below
        ({ s with memory := s.memory.set place.val value place.isLt }.advance rest) [] []

theorem load_lifts (args : List Int) (s : State) :
    (load args s).Lifts below (load args (s.above below)) := by
  cases args with
  | cons address others => exact readCell_lifts below s address s.stack
  | nil => exact consume_lifts below _ _ _ _ s fun address rest =>
    readCell_lifts below s address rest

theorem store_lifts (args : List Int) (s : State) :
    (store args s).Lifts below (store args (s.above below)) := by
  unfold store
  split
  · exact lifts_failed below _ _ _
  · next value rest address others stack =>
      simp only [State.above, stack, List.cons_append]
      exact writeCell_lifts below s address value rest
  · next value address rest stack =>
      simp only [State.above, stack, List.cons_append]
      exact writeCell_lifts below s address value rest
  · exact lifts_failed below _ _ _

theorem branch_lifts (opcode : Opcode) (taken : Int → Bool) (args : List Int) (s : State) :
    (branch opcode taken args s).Lifts below (branch opcode taken args (s.above below)) := by
  unfold branch
  split
  · exact lifts_failed below _ _ _
  · exact lifts_failed below _ _ _
  · next target others a rest stack =>
      simp only [State.above, stack, List.cons_append]
      exact lifts_done below { s with stack := rest, counter := if taken a then target
        else s.counter + 1 } [] []

theorem verify_lifts (s : State) : (verify s).Lifts below (verify (s.above below)) := by
  unfold verify
  split
  · next key message signature rest stack =>
      simp only [State.above, stack, List.cons_append]
      exact lifts_done below _ [] []
  · exact lifts_failed below _ _ _

theorem tell_lifts (opcode : Opcode) (heading : String) (s : State) :
    (tell opcode heading s).Lifts below (tell opcode heading (s.above below)) := by
  apply consume_lifts
  intro a rest
  by_cases writable : Text.Writable a
  · rw [if_pos writable, if_pos writable]
    exact lifts_done below (s.advance rest) _ _
  · rw [if_neg writable]
    exact lifts_failed below _ _ _

theorem sign_lifts (s : State) : (sign s).Lifts below (sign (s.above below)) := by
  unfold sign
  split
  · next key message rest stack =>
      simp only [State.above, stack, List.cons_append]
      exact lifts_done below (s.advance (word (bitXor message key) :: rest)) [] []
  · exact lifts_failed below _ _ _

theorem step_debug (ambient : Ambient) (args : List Int) {s : State}
    (shown : ∀ top ∈ s.stack.head?, Text.Writable top) :
    ∃ lines, step ambient ⟨.debug, args⟩ s = .done (s.advance s.stack) lines := by
  simp only [step]
  split
  · next top rest stack => exact ⟨_, if_pos (shown top (by rw [stack]; rfl))⟩
  · exact ⟨[], rfl⟩

theorem debug_done {ambient : Ambient} {args : List Int} {s next : State} {said : List String}
    (done : step ambient ⟨.debug, args⟩ s = .done next said) :
    next = s.advance s.stack ∧ ∀ top ∈ s.stack.head?, Text.Writable top := by
  simp only [step] at done
  split at done
  · next top rest stack =>
      split at done
      · next writable =>
          cases done
          exact ⟨rfl, by simpa [stack] using writable⟩
      · cases done
  · next stack =>
      cases done
      exact ⟨rfl, by simp [stack]⟩

/-- Both stacks are left as they are, whichever top is shown. -/
theorem debug_lifts (ambient : Ambient) (args : List Int) (s : State)
    (shown : s.stack = [] → ∀ top ∈ below.head?, Text.Writable top) :
    (step ambient ⟨.debug, args⟩ s).Lifts below (step ambient ⟨.debug, args⟩ (s.above below)) := by
  intro next said done
  obtain ⟨rfl, writable⟩ := debug_done done
  have visible : ∀ top ∈ (s.above below).stack.head?, Text.Writable top := by
    cases stack : s.stack with
    | nil => simpa only [State.above, stack, List.nil_append] using shown stack
    | cons top rest => simpa [State.above, stack] using writable
  exact step_debug ambient args visible

/-- A command that succeeds does the same with more values under the stack, if it does not come to
show one of them that is too long. -/
theorem step_lifts (ambient : Ambient) (command : Command) (s : State)
    (shown : command.opcode = .debug → s.stack = [] → ∀ top ∈ below.head?, Text.Writable top) :
    (step ambient command s).Lifts below (step ambient command (s.above below)) := by
  obtain ⟨opcode, args⟩ := command
  cases opcode with
  | add | sub | mul | and | or | xor | shl | shr | eq | neq | lt | gt | lte | gte =>
      exact binary_lifts below _ _ s
  | div | mod => exact divide_lifts below _ _ _ s
  | load | mload => exact load_lifts below args s
  | store | mstore => exact store_lifts below args s
  | jz | jnz => exact branch_lifts below _ _ args s
  | verify => exact verify_lifts below s
  | sign => exact sign_lifts below s
  | not => exact consume_advance_lifts below _ _ s (fun a => [word (-a - 1)]) _
  | pop => exact consume_advance_lifts below _ _ s (fun _ => []) _
  | dup => exact consume_advance_lifts below _ _ s (fun a => [a, a]) _
  | log | send => exact tell_lifts below _ _ s
  | debug => exact debug_lifts below ambient args s (shown rfl)
  | recv | time | rand | id => exact lifts_done below (s.advance (_ :: s.stack)) [] []
  | nop => exact lifts_done below (s.advance s.stack) [] []
  | halt => exact lifts_done below { s with halted := true } [] []
  | push =>
      cases args with
      | nil => exact lifts_failed below _ _ _
      | cons value others => exact lifts_done below (s.advance (value :: s.stack)) [] []
  | swap =>
      simp only [step]
      split
      · next a b rest stack =>
          simp only [State.above, stack, List.cons_append]
          exact lifts_done below (s.advance (b :: a :: rest)) [] []
      · exact lifts_failed below _ _ _
  | jmp =>
      cases args with
      | nil => exact lifts_failed below _ _ _
      | cons target others => exact lifts_done below { s with counter := target } [] []
  | call =>
      cases args with
      | nil => exact lifts_failed below _ _ _
      | cons target others =>
          exact lifts_done below
            { s with stack := (s.counter + 1) :: s.stack, counter := target } [] []
  | ret =>
      exact consume_lifts below _ _ _ _ s fun a rest =>
        lifts_done below { s with stack := rest, counter := a } [] []
  | hash =>
      exact consume_lifts below _ _ _ _ s fun a rest =>
        lifts_done below
          ({ s with lastHash := some (word (residue a)) }.advance (word (residue a) :: rest)) [] []
  | write =>
      exact consume_lifts below _ _ _ _ s fun a rest =>
        lifts_done below ({ s with outputs := s.outputs ++ [a] }.advance rest) [] []
  | assert =>
      apply consume_lifts
      intro a rest
      by_cases zero : a = 0
      · rw [if_pos zero]
        exact lifts_failed below _ _ _
      · rw [if_neg zero, if_neg zero]
        exact lifts_done below (s.advance rest) [] []
  | read =>
      simp only [step]
      split
      · next value later inputs =>
          simp only [State.above, inputs]
          exact lifts_done below ({ s with inputs := later }.advance (value :: s.stack)) [] []
      · next inputs =>
          have liftedInputs : (s.above below).inputs = [] := inputs
          simp only [liftedInputs]
          exact lifts_done below (s.advance (0 :: s.stack)) [] []

end Commands

/-! ## Runs -/

/-- The second machine is the first one with more values under its stack.  Since their traces were
both `old`, they have recorded the same entries but for the depths. -/
structure Lifted (below : List Int) (old : List TraceEntry) (m lifted : Machine) : Prop where
  state : lifted.state = m.state.above below
  trace : ∃ added, m.trace.toList = old ++ added ∧
    lifted.trace.toList = old ++ added.map (TraceEntry.deepen below.length)

theorem lifted_start (m : Machine) (below : List Int) :
    Lifted below m.trace.toList m (m.above below) :=
  ⟨rfl, [], by simp [above]⟩

/-- The machine is about to show the top of a stack that is empty. -/
def Exposed (m : Machine) : Prop :=
  m.state.stack = [] ∧ ∃ args, fetch m.state.program m.state.counter = .ok ⟨.debug, args⟩

/-- Some machine is exposed before the last of so many turns. -/
def Exposes (ambient : Ambient) (inspector : Inspector) (count : Nat) (m : Machine) : Prop :=
  ∃ earlier < count, ∃ between, turns ambient inspector earlier m = some between ∧ between.Exposed

theorem Exposes.earlier {ambient : Ambient} {inspector : Inspector} {count : Nat} {m next : Machine}
    (exposes : next.Exposes ambient inspector count)
    (turned : Turned ambient inspector m next none) :
    m.Exposes ambient inspector (count + 1) := by
  obtain ⟨earlier, less, between, went, exposed⟩ := exposes
  refine ⟨earlier + 1, Nat.succ_lt_succ less, between, ?_, exposed⟩
  rw [turns, turn_of_turned ambient inspector turned]
  exact went

theorem lifted_turned (first second : Ambient) (inspector : Inspector) {below : List Int}
    {old : List TraceEntry} {m lifted next : Machine} (start : Lifted below old m lifted)
    (selfContained : SelfContained m.state.program)
    (shown : m.Exposed → ∀ top ∈ below.head?, Text.Writable top)
    (turned : Turned first inspector m next none) :
    ∃ reached, Turned second inspector lifted reached none ∧ Lifted below old next reached := by
  obtain ⟨state, added, trace, liftedTrace⟩ := start
  cases turned with
  | went command next said running inside fetched stepped =>
      -- the outside is exchanged first; only then are the values put below
      have stepped' : step second command m.state = .done next said := by
        rw [← step_of_fetch first second selfContained fetched]
        exact stepped
      have visible : command.opcode = .debug → m.state.stack = [] → ∀ top ∈ below.head?,
          Text.Writable top := by
        intro kind empty
        refine shown ⟨empty, command.args, ?_⟩
        rw [← kind]
        exact fetched
      obtain ⟨lines, lifts⟩ := step_lifts below second command m.state visible next said stepped'
      rw [← state] at lifts
      refine ⟨recorded inspector lifted command (next.above below) lines, ?_, rfl, ?_⟩
      · exact .went command _ lines (by rw [state]; exact running) (by rw [state]; exact inside)
          (by rw [state]; exact fetched) lifts
      · refine ⟨added ++ [⟨next.cycles, next.counter, command, next.stack.length, next.registers⟩],
          ?_, ?_⟩
        · simp only [recorded, Array.toList_push, trace, List.append_assoc]
        · simp only [recorded, Array.toList_push, liftedTrace, List.map_append, List.append_assoc,
            List.map_cons, List.map_nil, TraceEntry.deepen, State.above, List.length_append]

theorem lifted_turns (first second : Ambient) (inspector : Inspector) (count : Nat)
    {below : List Int} {old : List TraceEntry} {m lifted reached : Machine}
    (start : Lifted below old m lifted) (selfContained : SelfContained m.state.program)
    (shown : m.Exposes first inspector count → ∀ top ∈ below.head?, Text.Writable top)
    (ran : turns first inspector count m = some reached) :
    ∃ liftedReached, turns second inspector count lifted = some liftedReached ∧
      Lifted below old reached liftedReached := by
  induction count generalizing m lifted with
  | zero =>
      cases Option.some.inj ran
      exact ⟨lifted, rfl, start⟩
  | succ count ih =>
      obtain ⟨next, went, later⟩ := turn_of_turns_succ first inspector ran
      have turned := turned_of_turn first inspector went
      obtain ⟨between, turnedLifted, lifts⟩ :=
        lifted_turned first second inspector start selfContained
          (fun exposed => shown ⟨0, Nat.succ_pos count, m, rfl, exposed⟩) turned
      -- the program stays as it is, so what it never asks for carries over to the turns that are
      -- left
      have sameProgram := program_turned first inspector turned
      obtain ⟨liftedReached, liftedRan, liftsToo⟩ :=
        ih lifts (by rw [sameProgram]; exact selfContained)
          (fun exposes => shown (exposes.earlier turned)) later
      refine ⟨liftedReached, ?_, liftsToo⟩
      rw [turns, turn_of_turned second inspector turnedLifted]
      exact liftedRan

/-- The stack frame rule.  Let `count` commands of a self-contained program run without a fault from
any machine and any stack, and let there be further values `below` that stack (a stack is held with
its top first), the first of which is not too long if one of the commands is a `debug` on the empty
stack.  With the further values they run without a fault.  They leave the same state with the values
`below` under its stack, so that counter, halting, memory, buffers, hash, signatures and cycles are
the same, and the entries that they record differ only in a depth that is larger by the number of
those values. -/
theorem stack_frame (first second : Ambient) (inspector : Inspector) (m reached : Machine)
    (below : List Int) (count : Nat) (selfContained : SelfContained m.state.program)
    (shown : m.Exposes first inspector count → ∀ top ∈ below.head?, Text.Writable top)
    (ran : turns first inspector count m = some reached) :
    ∃ lifted, turns second inspector count (m.above below) = some lifted ∧
      lifted.state = { reached.state with stack := reached.state.stack ++ below } ∧
      (∃ added : List TraceEntry, reached.trace.toList = m.trace.toList ++ added ∧
        lifted.trace.toList =
          m.trace.toList ++ added.map fun entry =>
            { entry with depth := entry.depth + below.length }) ∧
      (runFor first inspector count m).1 = reached ∧
      (runFor second inspector count (m.above below)).1 = lifted := by
  obtain ⟨lifted, liftedRan, lifts⟩ :=
    lifted_turns first second inspector count (lifted_start m below) selfContained shown ran
  exact ⟨lifted, liftedRan, lifts.state, lifts.trace, runFor_fst_of_turns first inspector count ran,
    runFor_fst_of_turns second inspector count liftedRan⟩

/-- A call whose body stores a value at an address from the stack, then a look at a stack that is
empty, on top of two values. -/
theorem stack_frame_call :
    let first : Ambient := ⟨fun _ => 0, fun _ => 0, fun _ => 0⟩
    let second : Ambient := ⟨fun _ => 1, fun _ => 2, fun _ => 3⟩
    let m : Machine :=
      { state := { program := [⟨.call, [3]⟩, ⟨.debug, []⟩, ⟨.halt, []⟩, ⟨.push, [-1]⟩,
      ⟨.push, [7]⟩, ⟨.mstore, []⟩, ⟨.ret, []⟩] } }
    SelfContained m.state.program ∧ (∀ top ∈ [(5 : Int), 6].head?, Text.Writable top) ∧
      ∃ reached lifted, turns first none 7 m = some reached ∧
        turns second none 7 (m.above [5, 6]) = some lifted ∧
      lifted.state = { reached.state with stack := reached.state.stack ++ [5, 6] } := by
  intro first second m
  have selfContained : SelfContained m.state.program := by decide
  have finishes : (turns first none 7 m).isSome := by decide
  obtain ⟨reached, ran⟩ := Option.isSome_iff_exists.mp finishes
  have shown : ∀ top ∈ [(5 : Int), 6].head?, Text.Writable top := by decide
  obtain ⟨lifted, liftedRan, state, _⟩ :=
    stack_frame first second none m reached [5, 6] 7 selfContained (fun _ => shown) ran
  exact ⟨selfContained, shown, reached, lifted, ran, liftedRan, state⟩

/-- A look at an empty stack is no look at the stack with a number below it that has too many
digits. -/
theorem look_at_long_number :
    ¬ ∀ (ambient : Ambient) (inspector : Inspector) (m reached : Machine) (below : List Int)
      (count : Nat),
      SelfContained m.state.program → turns ambient inspector count m = some reached →
        (turns ambient inspector count (m.above below)).isSome = true := by
  intro frames
  let ambient : Ambient := ⟨fun _ => 0, fun _ => 0, fun _ => 0⟩
  let m : Machine := { state := { program := [⟨.debug, []⟩] } }
  obtain ⟨reached, ran⟩ :=
    Option.isSome_iff_exists.mp (by decide : (turns ambient none 1 m).isSome = true)
  have stops (n : Int) (long : ¬ Text.Writable n) : turns ambient none 1 (m.above [n]) = none := by
    simp [turns, turn, m, above, State.above, fetch, leastPlace, step, long]
  have lifted := frames ambient none m reached [Text.tooLong] 1 (by decide) ran
  rw [stops _ Text.not_writable_tooLong] at lifted
  cases lifted

end Zkvm.Machine
