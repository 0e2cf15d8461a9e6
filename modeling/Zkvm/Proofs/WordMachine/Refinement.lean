import Zkvm.Proofs.Machine.Parsing
import Zkvm.Proofs.Machine.Turn
import Zkvm.Proofs.WordMachine.Step

/-!
# The integer machine refines the word machine

Only seven operations of the integer machine reduce their results to words.  Still, a program whose
immediates and inputs are words never leaves them: its runs go through the states of the word
machine, turn by turn, and stop for the same reason.  The invariant is `Mirrors`: the state is a
word state read as integers, and the program is too short for its counter to wrap round.
-/
set_option autoImplicit false

namespace Zkvm.WordMachine

open Machine (Ambient Inspector)

def Stop.widen : Stop → Machine.Stop
  | .halted => .halted
  | .limit => .limit
  | .ended => .ended
  | .failed fault => .failed fault.widen

/-- The machine is in a state of the word machine, and no counter inside its program is the largest
word. -/
structure Mirrors (m : Machine) (s : State) : Prop where
  state : m.state = s.widen
  short : s.program.length < 4294967296

theorem fetch_widen {s : State} {command : Command}
    (found : s.program[s.counter.toNat]? = some command) :
    Machine.fetch s.widen.program s.widen.counter = .ok command.widen := by
  apply Machine.fetch_front
  rw [widen_program, List.getElem?_map, found, Option.map_some]

theorem Mirrors.turned {m next : Machine} {s wordNext : State} {ambient : Ambient}
    {inspector : Inspector} {stop : Option Machine.Stop} (mirrors : Mirrors m s)
    (turned : Machine.Turned ambient inspector m next stop) (state : next.state = wordNext.widen) :
    Mirrors next wordNext := by
  refine ⟨state, ?_⟩
  have program := Machine.program_turned ambient inspector turned
  rw [state, mirrors.state] at program
  have lengths := congrArg List.length program
  simp only [widen_program, List.length_map] at lengths
  rw [lengths]
  exact mirrors.short

/-- A turn leaves both machines in the same state, and stops for the same reason if at all. -/
theorem turn_widen (ambient : Ambient) (inspector : Inspector) {m : Machine} {s : State}
    (mirrors : Mirrors m s) :
    (Machine.turn ambient inspector m).1.state = (turn ambient s).1.widen ∧
      (Machine.turn ambient inspector m).2 = (turn ambient s).2.map Stop.widen := by
  have sameHalted : m.state.halted = s.halted := by rw [mirrors.state, widen_halted]
  cases halted : s.halted with
  | true =>
      rw [Machine.turn_halted ambient inspector (sameHalted.trans halted), turn, halted]
      exact ⟨mirrors.state, rfl⟩
  | false =>
      cases found : s.program[s.counter.toNat]? with
      | none =>
          have past : m.state.program.length ≤ m.state.counter := by
            have missed := List.getElem?_eq_none_iff.mp found
            rw [mirrors.state, widen_program, List.length_map, widen_counter]
            exact Int.ofNat_le.mpr missed
          rw [Machine.turn_ended ambient inspector (sameHalted.trans halted) past, turn, halted]
          simp only [found]
          exact ⟨mirrors.state, rfl⟩
      | some command =>
          obtain ⟨inside, _⟩ := List.getElem?_eq_some_iff.mp found
          have room : s.counter.toNat + 1 < 4294967296 := Nat.lt_of_le_of_lt inside mirrors.short
          have notPast : ¬ ((s.program.map Command.widen).length : Int) ≤ value s.counter := by
            rw [List.length_map, value]
            omega
          simp only [Machine.turn, turn, mirrors.state, widen_halted, halted, widen_program,
            widen_counter, Bool.false_eq_true, if_false, if_neg notPast, found]
          rw [← widen_program, ← widen_counter, fetch_widen found]
          simp only [step_widen room ambient command]
          cases step ambient command s with
          | failed left fault => exact ⟨rfl, rfl⟩
          | done next said => exact ⟨rfl, rfl⟩

theorem turn_mirrors (ambient : Ambient) (inspector : Inspector) {m : Machine} {s : State}
    (mirrors : Mirrors m s) :
    (∃ next wordNext, Machine.turn ambient inspector m = (next, none) ∧
      turn ambient s = (wordNext, none) ∧
      Mirrors next wordNext) ∨
    (∃ left wordLeft stop, Machine.turn ambient inspector m = (left, some (Stop.widen stop)) ∧
      turn ambient s = (wordLeft, some stop) ∧ Mirrors left wordLeft) := by
  obtain ⟨sameState, sameStop⟩ := turn_widen ambient inspector mirrors
  have mirrorsNext := mirrors.turned (Machine.turned ambient inspector m) sameState
  cases result : Machine.turn ambient inspector m with
  | mk next stop =>
      cases wordResult : turn ambient s with
      | mk wordNext wordStop =>
          rw [result, wordResult] at mirrorsNext sameStop
          cases wordStop with
          | none =>
              cases sameStop
              exact .inl ⟨next, wordNext, rfl, rfl, mirrorsNext⟩
          | some wordStop =>
              cases sameStop
              exact .inr ⟨next, wordNext, wordStop, rfl, rfl, mirrorsNext⟩

/-- As many turns lead both machines to the same state, or neither can take them. -/
theorem turns_mirrors (ambient : Ambient) (inspector : Inspector) (count : Nat) {m : Machine}
    {s : State} (mirrors : Mirrors m s) :
    (Machine.turns ambient inspector count m).map Machine.state =
      (turns ambient count s).map State.widen := by
  induction count generalizing m s with
  | zero => exact congrArg some mirrors.state
  | succ count ih =>
      rw [Machine.turns, turns]
      rcases turn_mirrors ambient inspector mirrors with
        ⟨next, wordNext, went, wordWent, mirrorsNext⟩
          | ⟨left, wordLeft, stop, stopped, wordStopped, _⟩
      · rw [went, wordWent]
        exact ih mirrorsNext
      · rw [stopped, wordStopped]
        rfl

theorem runFor_mirrors (ambient : Ambient) (inspector : Inspector) (budget : Nat) {m : Machine}
    {s : State} (mirrors : Mirrors m s) :
    (Machine.runFor ambient inspector budget m).1.state = (runFor ambient budget s).1.widen ∧
      (Machine.runFor ambient inspector budget m).2 = (runFor ambient budget s).2.widen := by
  induction budget generalizing m s with
  | zero =>
      rw [Machine.runFor_zero, runFor, mirrors.state, widen_halted]
      refine ⟨rfl, ?_⟩
      cases s.halted <;> rfl
  | succ budget ih =>
      rw [Machine.runFor_succ, runFor]
      rcases turn_mirrors ambient inspector mirrors with
        ⟨next, wordNext, went, wordWent, mirrorsNext⟩ |
        ⟨left, wordLeft, stop, stopped, wordStopped, mirrorsLeft⟩
      · rw [went, wordWent]
        exact ih mirrorsNext
      · rw [stopped, wordStopped]
        exact ⟨mirrorsLeft.state, rfl⟩

/-! ## From a program and its inputs -/

def Command.narrow (command : Machine.Command) : Command :=
  ⟨command.opcode, command.args.map WordMachine.narrow⟩

/-- The word machine with a program and an input buffer, before its first cycle. -/
def State.start (program : List Machine.Command) (inputs : List Int) : State :=
  { program := program.map Command.narrow, inputs := inputs.map narrow }

theorem map_value_narrow {values : List Int} (words : ∀ v ∈ values, IsWord v) :
    (values.map narrow).map value = values := by
  rw [List.map_map]
  calc values.map (value ∘ narrow) = values.map id :=
        List.map_congr_left fun v member => value_narrow_of_isWord (words v member)
    _ = values := List.map_id values

theorem widen_narrow {command : Machine.Command} (words : ∀ v ∈ command.args, IsWord v) :
    (Command.narrow command).widen = command := by
  simp only [Command.widen, Command.narrow, map_value_narrow words]

theorem parse_args {source : Machine.Source} {program : List Machine.Command}
    (parsed : Machine.parse source = .ok program) :
    program.map Machine.Command.args = source.map Prod.snd := by
  have lines := congrArg (List.map Prod.snd) (Machine.parse_eq_ok_iff.mp parsed)
  rwa [List.map_map, List.map_map] at lines

theorem args_of_source {source : Machine.Source} {program : List Machine.Command}
    {good : Int → Prop} (parsed : Machine.parse source = .ok program)
    (lines : ∀ line ∈ source, ∀ v ∈ line.2, good v) :
    ∀ command ∈ program, ∀ v ∈ command.args, good v := by
  intro command member v inArgs
  have kept : command.args ∈ source.map Prod.snd := by
    rw [← parse_args parsed]
    exact List.mem_map_of_mem member
  obtain ⟨line, inSource, same⟩ := List.mem_map.mp kept
  rw [← same] at inArgs
  exact lines line inSource v inArgs

theorem start_mirrors {source : Machine.Source} {loaded : Machine} {inputs : List Int}
    (load : Machine.load? {} source = .ok loaded) (short : source.length < 4294967296)
    (immediates : ∀ line ∈ source, ∀ v ∈ line.2, IsWord v) (words : ∀ v ∈ inputs, IsWord v) :
    Mirrors (loaded.feed inputs) (State.start loaded.state.program inputs) := by
  rw [Machine.load?] at load
  cases parsed : Machine.parse source with
  | error unknown => simp [parsed, Except.map] at load
  | ok program =>
      simp only [parsed, Except.map, Except.ok.injEq] at load
      subst load
      have commands : (program.map Command.narrow).map Command.widen = program := by
        rw [List.map_map]
        calc program.map (Command.widen ∘ Command.narrow) = program.map id :=
              List.map_congr_left fun command member =>
                widen_narrow (args_of_source parsed immediates command member)
          _ = program := List.map_id program
      have lengths : program.length = source.length := by
        have kept := congrArg List.length (parse_args parsed)
        rwa [List.length_map, List.length_map] at kept
      refine ⟨?_, by simpa only [State.start, List.length_map, lengths] using short⟩
      simp only [Machine.feed, State.start, State.widen, commands, map_value_narrow words,
        List.nil_append, List.map_nil, Option.map_none, Vector.map_replicate]
      rfl

/-- All that a state holds are words, and its counter is not negative. -/
structure WordsOnly (state : Machine.State) : Prop where
  stack : ∀ v ∈ state.stack, IsWord v
  memory : ∀ v ∈ state.memory, IsWord v
  outputs : ∀ v ∈ state.outputs, IsWord v
  lastHash : ∀ v ∈ state.lastHash, IsWord v
  counter : 0 ≤ state.counter

theorem widen_wordsOnly (s : State) : WordsOnly s.widen := by
  have mapped : ∀ (values : List Word), ∀ v ∈ values.map value, IsWord v := by
    intro values v member
    obtain ⟨w, _, rfl⟩ := List.mem_map.mp member
    exact value_isWord w
  refine ⟨mapped s.stack, ?_, mapped s.outputs, ?_, (value_isWord s.counter).1⟩
  · intro v member
    obtain ⟨w, _, rfl⟩ := Vector.mem_map.mp member
    exact value_isWord w
  · intro v member
    obtain ⟨w, _, rfl⟩ := Option.map_eq_some_iff.mp member
    exact value_isWord w

theorem Stop.widen_ne_offRange (stop : Stop) (cause : Machine.OffRange) :
    stop.widen ≠ .failed (.offRange cause) := by
  intro same
  cases stop with
  | halted | limit | ended => cases same
  | failed fault => cases fault <;> cases same

/-- The integer machine refines the word machine.  Load a program of fewer than `4294967296` lines
whose immediates are words into a fresh machine and feed it words.  Then it goes through the same
states as the word machine, turn by turn, where the turns lead a run under a limit of as many
cycles; and under every limit both stop in the same state for the same reason.  So all values stay
words, the counter is never negative, and no place is ever out of range. -/
theorem run_refines_words (ambient : Ambient) (inspector : Inspector) (source : Machine.Source)
    (loaded : Machine) (inputs : List Int) (load : Machine.load? {} source = .ok loaded)
    (short : source.length < 4294967296) (immediates : ∀ line ∈ source, ∀ v ∈ line.2, IsWord v)
    (words : ∀ v ∈ inputs, IsWord v) :
    let machine := loaded.feed inputs
    let reference := State.start loaded.state.program inputs
    (∀ count, (machine.turns ambient inspector count).map Machine.state =
      (turns ambient count reference).map State.widen) ∧
    (∀ (count : Nat) reached, machine.turns ambient inspector count = some reached →
      (machine.run ambient inspector count).1 = reached) ∧
    ∀ limit : Int,
      (machine.run ambient inspector limit).1.state = (run ambient limit reference).1.widen ∧
      (machine.run ambient inspector limit).2 = (run ambient limit reference).2.widen ∧
      WordsOnly (machine.run ambient inspector limit).1.state ∧
      ∀ cause, (machine.run ambient inspector limit).2 ≠ .failed (.offRange cause) := by
  intro machine reference
  have mirrors : Mirrors machine reference := start_mirrors load short immediates words
  have sameBudget : machine.state.cycles = reference.cycles := by rw [mirrors.state, widen_cycles]
  refine ⟨fun count => turns_mirrors ambient inspector count mirrors, ?_, fun limit => ?_⟩
  · intro count reached went
    exact Machine.run_of_turns ambient inspector count sameBudget went
  obtain ⟨sameState, sameStop⟩ :=
    runFor_mirrors ambient inspector (limit - machine.state.cycles).toNat mirrors
  simp only [Machine.run, run, sameState, sameStop, ← sameBudget]
  exact ⟨trivial, trivial, widen_wordsOnly _, Stop.widen_ne_offRange _⟩

/-- A sum that wraps round, a quotient that is not reduced and a call, on an input. -/
theorem run_refines_words_wrapping :
    let ambient : Ambient := ⟨fun _ => 0, fun _ => 0, fun _ => 0⟩
    let source : Machine.Source :=
      [("push", [4294967295]), ("read", []), ("ADD", []), ("push", [2]),
      ("div", []), ("call", [7]), ("halt", []), ("store", [65535]), ("hash", []), ("write", [])]
    ∃ loaded, Machine.load? {} source = .ok loaded ∧ source.length < 4294967296 ∧
      (∀ line ∈ source, ∀ v ∈ line.2, IsWord v) ∧ (∀ v ∈ [7], IsWord v) ∧
      ((loaded.feed [7]).run ambient none 100).1.state =
        (run ambient 100 (State.start loaded.state.program [7])).1.widen := by
  intro ambient source
  have immediates : ∀ line ∈ source, ∀ v ∈ line.2, IsWord v := by decide
  have words : ∀ v ∈ [7], IsWord v := by decide
  refine ⟨_, rfl, by decide, immediates, words, ?_⟩
  exact ((run_refines_words ambient none source _ [7] rfl (by decide) immediates words).2.2 100).1

end Zkvm.WordMachine
