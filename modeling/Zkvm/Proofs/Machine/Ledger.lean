import Zkvm.Proofs.Json.Put
import Zkvm.Proofs.Machine.History
import Zkvm.Proofs.Machine.Stepped

/-!
# What runs read, write, hash and verify

Four operations leave something behind that no later command takes back: `write` adds to the
outputs, `read` takes from the inputs, `hash` and `verify` keep a record.  `Noted` says what one
command does to these parts of the state, and that all other commands leave them alone.  So they can
be told from the events alone, over any number of runs, failed ones among them, as long as nothing
is loaded or fed in between.
-/
set_option autoImplicit false

namespace Zkvm.Machine

/-! ## One command -/

/-- The parts of a state that record what was done. -/
structure Ledger where
  outputs : List Int
  inputs : List Int
  signatures : List (Int × Bool)
  lastHash : Option Int

def State.ledger (s : State) : Ledger :=
  ⟨s.outputs, s.inputs, s.signatures, s.lastHash⟩

def Opcode.isNoted : Opcode → Bool
  | .write | .read | .hash | .verify => true
  | _ => false

/-- What a command that succeeds makes of the ledger, with the operands that it takes for that and
the values that it pushes. -/
inductive Noted (command : Command) (s : State) (stack : List Int) (ledger : Ledger) : Prop where
  | wrote (value : Int) (kind : command.opcode = .write) (popped : s.stack = value :: stack)
      (entry : ledger = ⟨s.outputs ++ [value], s.inputs, s.signatures, s.lastHash⟩)
  | read (value : Int) (kind : command.opcode = .read) (found : value = s.inputs.headD 0)
      (pushed : stack = value :: s.stack)
        (entry : ledger = ⟨s.outputs, s.inputs.tail, s.signatures, s.lastHash⟩)
  | hashed (value digest : Int) (rest : List Int) (kind : command.opcode = .hash)
    (popped : s.stack = value :: rest)
      (pushed : stack = digest :: rest)
        (entry : ledger = ⟨s.outputs, s.inputs, s.signatures, some digest⟩)
  | verified (key message signature valid : Int) (rest : List Int) (kind : command.opcode = .verify)
      (popped : s.stack = key :: message :: signature :: rest) (pushed : stack = valid :: rest)
      (entry : ledger =
        ⟨s.outputs, s.inputs, recordSignature message (decide (valid ≠ 0)) s.signatures,
          s.lastHash⟩)
  | unnoted (kind : command.opcode.isNoted = false) (entry : ledger = s.ledger)

theorem ledger_of_stepped {command : Command} {s next : State} {said : List String}
    (stepped : Stepped command s next said) (other : command.opcode.isNoted = false) :
    next.ledger = s.ledger := by
  cases stepped with
  | moved | halted | loaded | stored => rfl
  | hashed value rest kind | verified key message signature valid rest kind
  | received value later kind
  | written value rest kind =>
      rw [kind] at other
      cases other

/-- A remainder by two is one just if it is not zero. -/
theorem beq_one_of_emod_two (value : Int) : (value % 2 == 1) = decide (value % 2 ≠ 0) := by
  rcases Int.emod_two_eq value with zero | one
  · simp [zero]
  · simp [one]

theorem noted {ambient : Ambient} {command : Command} {s next : State} {said : List String}
    (done : step ambient command s = .done next said) : Noted command s next.stack next.ledger := by
  have other := ledger_of_stepped (stepped done)
  obtain ⟨opcode, args⟩ := command
  cases opcode with
  | write =>
      simp only [step, consume] at done
      split at done
      · next value rest stack =>
          cases done
          exact .wrote value rfl stack rfl
      · cases done
  | read =>
      simp only [step] at done
      split at done
      · next value later buffered =>
          cases done
          refine .read value rfl ?_ rfl ?_
          · rw [buffered, List.headD_cons]
          · rw [buffered]
            rfl
      · next exhausted =>
          cases done
          refine .read 0 rfl ?_ rfl ?_
          · rw [exhausted, List.headD_nil]
          · simp only [State.ledger, State.advance, exhausted, List.tail_nil]
  | hash =>
      simp only [step, consume] at done
      split at done
      · next value rest stack =>
          cases done
          exact .hashed value _ rest rfl stack rfl rfl
      · cases done
  | verify =>
      simp only [step, verify] at done
      split at done
      · next key message signature rest stack =>
          cases done
          refine .verified key message signature _ rest rfl stack rfl ?_
          rw [← beq_one_of_emod_two]
          rfl
      · cases done
  | _ => exact .unnoted rfl (other rfl)

/-! ## Records of verification -/

theorem lookup_recordSignature (message key : Int) (valid : Bool) (records : List (Int × Bool)) :
    (recordSignature message valid records).lookup key =
      if key = message then some valid else records.lookup key := by
  induction records with
  | nil => rw [recordSignature, Json.lookup_cons_eq]
  | cons first rest ih =>
      obtain ⟨m, v⟩ := first
      by_cases known : m = message
      · subst known
        by_cases same : key = m <;> simp [recordSignature, Json.lookup_cons_eq, same]
      · by_cases same : key = message
        · subst same
          simp [recordSignature, Json.lookup_cons_eq, known, Ne.symm known, ih]
        · simp [recordSignature, Json.lookup_cons_eq, known, same, ih]

/-- A message that is new goes to the end, and any other one keeps its place. -/
theorem keys_recordSignature (message : Int) (valid : Bool) (records : List (Int × Bool)) :
    (recordSignature message valid records).map Prod.fst =
      records.map Prod.fst ++ if message ∈ records.map Prod.fst then [] else [message] := by
  induction records with
  | nil => rfl
  | cons first rest ih =>
      obtain ⟨m, v⟩ := first
      by_cases known : m = message
      · simp [recordSignature, known]
      · simp [recordSignature, known, ih, Ne.symm known]

/-- Of messages the new ones, each where it comes first. -/
def newMessages (known messages : List Int) : List Int :=
  (messages.removeAll known).eraseDups

theorem mem_newMessages {known messages : List Int} {message : Int} :
    message ∈ newMessages known messages ↔ message ∈ messages ∧ message ∉ known := by
  simp [newMessages, List.removeAll]

theorem newMessages_concat (known messages : List Int) (message : Int) :
    newMessages known (messages ++ [message]) =
      newMessages known messages ++ if message ∈ known ++ newMessages known messages then []
        else [message] := by
  have parts : (messages ++ [message]).removeAll known =
    messages.removeAll known ++ [message].removeAll known :=
    List.filter_append ..
  rw [newMessages, parts, List.eraseDups_append, ← newMessages]
  congr 1
  by_cases old : message ∈ known
  · simp [List.removeAll, old]
  · by_cases again : message ∈ newMessages known messages
    · have twice : message ∈ messages := (mem_newMessages.mp again).1
      simp [List.removeAll, old, again, twice]
    · have fresh : message ∉ messages := fun inside => again (mem_newMessages.mpr ⟨inside, old⟩)
      simp [List.removeAll, old, again, fresh, List.eraseDups_cons]

/-! ## One event -/

namespace Event
variable (event : Event)

def written? : Option Int :=
  if event.command.opcode = .write then event.before.stack.head? else none

def received? : Option Int :=
  if event.command.opcode = .read then event.after.stack.head? else none

def digest? : Option Int :=
  if event.command.opcode = .hash then event.after.stack.head? else none

/-- The message that a `verify` was about, with the truth of what it has pushed. -/
def verdict? : Option (Int × Bool) :=
  if event.command.opcode = .verify then
    match event.before.stack, event.after.stack with
    | _ :: message :: _, valid :: _ => some (message, decide (valid ≠ 0))
    | _, _ => none
  else none

def note (ledger : Ledger) : Ledger where
  outputs := ledger.outputs ++ event.written?.toList
  inputs := if event.command.opcode = .read then ledger.inputs.tail else ledger.inputs
  signatures := event.verdict?.elim ledger.signatures fun verdict =>
    recordSignature verdict.1 verdict.2 ledger.signatures
  lastHash := event.digest?.or ledger.lastHash

variable {event} (noted : Noted event.command event.before event.after.stack event.after.ledger)
include noted

theorem ledger_after : event.after.ledger = event.note event.before.ledger := by
  cases noted with
  | wrote value kind popped entry =>
      rw [entry]
      simp [note, written?, verdict?, digest?, kind, popped, State.ledger]
  | read value kind found pushed entry =>
      rw [entry]
      simp [note, written?, verdict?, digest?, kind, State.ledger]
  | hashed value digest rest kind popped pushed entry =>
      rw [entry]
      simp [note, written?, verdict?, digest?, kind, pushed, State.ledger]
  | verified key message signature valid rest kind popped pushed entry =>
      rw [entry]
      simp [note, written?, verdict?, digest?, kind, popped, pushed, State.ledger]
  | unnoted kind entry =>
      have other : ∀ opcode : Opcode, opcode.isNoted = true → event.command.opcode ≠ opcode := by
        intro opcode isNoted same
        rw [same, isNoted] at kind
        cases kind
      rw [entry]
      simp [note, written?, verdict?, digest?, other .write rfl, other .read rfl, other .hash rfl,
        other .verify rfl]

/-- A `read` pushes the next input, or zero where there is none. -/
theorem received?_eq :
    event.received? = if event.command.opcode = .read then some (event.before.inputs.headD 0)
      else none := by
  by_cases reads : event.command.opcode = .read
  · cases noted with
    | read value kind found pushed entry => simp [received?, kind, pushed, found]
    | wrote value kind | hashed value digest rest kind
    | verified key message signature valid rest kind =>
        cases kind.symm.trans reads
    | unnoted kind entry => simp [reads, Opcode.isNoted] at kind
  · simp [received?, reads]

end Event

/-! ## Any number of events -/

def reads (events : List Event) : Nat :=
  events.countP fun event => event.command.opcode = .read

/-- The verdicts of the verifications among some events, in their order. -/
def verdicts (events : List Event) : List (Int × Bool) :=
  events.filterMap Event.verdict?

/-- What the events since a start tell of the ledger that they have led to. -/
structure Tallies (start : Ledger) (past : List Event) (ledger : Ledger) : Prop where
  outputs : ledger.outputs = start.outputs ++ past.filterMap Event.written?
  received : past.filterMap Event.received? =
    (List.range (reads past)).map fun i => start.inputs.getD i 0
  inputs : ledger.inputs = start.inputs.drop (reads past)
  lookup : ∀ message, ledger.signatures.lookup message =
    ((verdicts past).reverse.lookup message).or (start.signatures.lookup message)
  keys : ledger.signatures.map Prod.fst = start.signatures.map Prod.fst ++
    newMessages (start.signatures.map Prod.fst) ((verdicts past).map Prod.fst)
  lastHash : ledger.lastHash = (past.filterMap Event.digest?).getLast?.or start.lastHash

theorem tallies_start (start : Ledger) : Tallies start [] start := by
  refine ⟨?_, rfl, rfl, fun _ => rfl, ?_, rfl⟩
  · simp
  · simp [newMessages, verdicts, List.removeAll]

section Events
variable {start : Ledger} {past : List Event} {event : Event}
  (tallies : Tallies start past event.before.ledger)
include tallies

theorem received_event
    (noted : Noted event.command event.before event.after.stack event.after.ledger) :
    (past ++ [event]).filterMap Event.received? =
      (List.range (reads (past ++ [event]))).map fun i => start.inputs.getD i 0 := by
  have inputs : event.before.inputs = start.inputs.drop (reads past) := tallies.inputs
  by_cases isRead : event.command.opcode = .read
  · have counted : reads (past ++ [event]) = reads past + 1 := by simp [reads, isRead]
    rw [counted, List.range_succ, List.map_append, List.filterMap_append, tallies.received]
    simp [Event.received?_eq noted, isRead, inputs]
  · have counted : reads (past ++ [event]) = reads past := by simp [reads, isRead]
    rw [counted, List.filterMap_append, tallies.received]
    simp [Event.received?_eq noted, isRead]

theorem inputs_event :
    (event.note event.before.ledger).inputs = start.inputs.drop (reads (past ++ [event])) := by
  by_cases isRead : event.command.opcode = .read <;>
    simp [Event.note, reads, isRead, tallies.inputs]

theorem signatures_event :
    (∀ message, (event.note event.before.ledger).signatures.lookup message =
      ((verdicts (past ++ [event])).reverse.lookup message).or (start.signatures.lookup message)) ∧
    (event.note event.before.ledger).signatures.map Prod.fst = start.signatures.map Prod.fst ++
      newMessages (start.signatures.map Prod.fst) ((verdicts (past ++ [event])).map Prod.fst) := by
  cases judged : event.verdict? with
  | none =>
      have same : verdicts (past ++ [event]) = verdicts past := by simp [verdicts, judged]
      simp only [Event.note, judged, same, Option.elim_none]
      exact ⟨tallies.lookup, tallies.keys⟩
  | some verdict =>
      obtain ⟨message, valid⟩ := verdict
      have longer : verdicts (past ++ [event]) = verdicts past ++ [(message, valid)] := by
        simp [verdicts, judged]
      simp only [Event.note, judged, longer, Option.elim_some]
      constructor
      · intro key
        rw [lookup_recordSignature, List.reverse_concat, Json.lookup_cons_eq, tallies.lookup]
        by_cases same : key = message <;> simp [same]
      · rw [keys_recordSignature, tallies.keys, List.map_append, List.map_singleton,
          newMessages_concat, List.append_assoc]

theorem tallies_event
    (noted : Noted event.command event.before event.after.stack event.after.ledger) :
    Tallies start (past ++ [event]) event.after.ledger := by
  obtain ⟨lookup, keys⟩ := signatures_event tallies
  rw [Event.ledger_after noted]
  refine ⟨?_, received_event tallies noted, inputs_event tallies, lookup, keys, ?_⟩
  · cases written : event.written? <;> simp [Event.note, tallies.outputs, written]
  · cases hashed : event.digest? <;> simp [Event.note, tallies.lastHash, hashed]

end Events

/-! ## Any number of runs -/

def runsTo (limits : List Int) : List ScriptStep :=
  limits.map fun limit => .execute limit true

/-- The events since a start are those that the trace shows, and they tell the ledger. -/
structure Chronicle (start : Machine) (past : List Event) (m : Machine) : Prop where
  trace : m.trace.toList = start.trace.toList ++ past.map Event.entry
  noted : ∀ event ∈ past, Noted event.command event.before event.after.stack event.after.ledger
  tallies : Tallies start.state.ledger past m.state.ledger

section Runs
variable (ambient : Ambient) (inspector : Inspector) {start m : Machine} {past : List Event}

theorem chronicle_went {command : Command} {next : State} {said : List String}
    (done : step ambient command m.state = .done next said) (chronicle : Chronicle start past m) :
    Chronicle start (past ++ [⟨command, m.state, (recorded inspector m command next said).state⟩])
      (recorded inspector m command next said) := by
  obtain ⟨_, _, _, cycles, _⟩ := step_done done
  have isNoted : Noted command m.state next.stack next.ledger := noted done
  refine ⟨?_, ?_, tallies_event chronicle.tallies isNoted⟩
  · simp [recorded, chronicle.trace, Event.entry, cycles]
  · exact List.forall_mem_append.mpr ⟨chronicle.noted, List.forall_mem_singleton.mpr isNoted⟩

theorem chronicle_runFor (budget : Nat) (chronicle : Chronicle start past m) :
    Chronicle start (past ++ eventsFor ambient inspector budget m)
      (runFor ambient inspector budget m).1 := by
  apply runFor_lasts ambient inspector
  · intro past m command next said done before
    exact chronicle_went ambient inspector done before
  · intro past m taken before
    exact ⟨before.trace, before.noted, before.tallies⟩
  · exact chronicle

theorem chronicle_runsTo (limits : List Int) (chronicle : Chronicle start past m) :
    Chronicle start (past ++ history ambient inspector m (runsTo limits))
      (afterAll ambient inspector m (runsTo limits)) := by
  induction limits generalizing past m with
  | nil =>
      rw [runsTo, List.map_nil, history, List.append_nil]
      exact chronicle
  | cons limit rest ih =>
      rw [runsTo, List.map_cons, history, ← List.append_assoc]
      exact ih (chronicle_runFor ambient inspector _ chronicle)

end Runs

theorem take_padded (values : List Int) (count : Nat) :
    (values ++ List.replicate count 0).take count =
      (List.range count).map fun i => values.getD i 0 := by
  apply List.ext_getElem
  · simp
  · intro i here _
    simp only [List.length_take] at here
    by_cases inside : i < values.length <;> simp [List.getElem_append, inside]

/-- What any number of runs reads, writes, hashes and verifies, without a load or an input in
between; some of them may fail.  The trace shows the events.  The outputs have grown by what every
`write` has popped, in order.  The values that the reads have pushed are the first of the inputs
followed by zeros, and these inputs are gone.  The record of a message is the verdict of the last
`verify` on it, or what it was before, and new messages stand behind the old ones in the order of
their first verification.  The last hash is what the last `hash` has pushed, if there was one. -/
theorem ledger_of_runs (ambient : Ambient) (inspector : Inspector) (m : Machine)
    (limits : List Int) :
    let final := afterAll ambient inspector m (runsTo limits)
    let events := history ambient inspector m (runsTo limits)
    let known := m.state.signatures.map Prod.fst
    final.trace.toList = m.trace.toList ++ events.map Event.entry ∧
    (∀ event ∈ events, Noted event.command event.before event.after.stack event.after.ledger) ∧
    final.state.outputs = m.state.outputs ++ events.filterMap Event.written? ∧
    events.filterMap Event.received? =
      (m.state.inputs ++ List.replicate (reads events) 0).take (reads events) ∧
    final.state.inputs = m.state.inputs.drop (min (reads events) m.state.inputs.length) ∧
    (∀ message, final.state.signatures.lookup message =
      ((verdicts events).reverse.lookup message).or (m.state.signatures.lookup message)) ∧
    final.state.signatures.map Prod.fst =
      known ++ newMessages known ((verdicts events).map Prod.fst) ∧
    final.state.lastHash = (events.filterMap Event.digest?).getLast?.or m.state.lastHash := by
  intro final events known
  have start : Chronicle m [] m := ⟨by simp, List.forall_mem_nil _, tallies_start m.state.ledger⟩
  have chronicle := chronicle_runsTo ambient inspector limits start
  rw [List.nil_append] at chronicle
  obtain ⟨trace, noted, tallies⟩ := chronicle
  refine ⟨trace, noted, tallies.outputs, ?_, ?_, tallies.lookup, tallies.keys, tallies.lastHash⟩
  · rw [take_padded]
    exact tallies.received
  · have dropped : final.state.inputs = m.state.inputs.drop (reads events) := tallies.inputs
    rw [dropped]
    by_cases enough : reads events ≤ m.state.inputs.length
    · rw [Nat.min_eq_left enough]
    · rw [Nat.min_eq_right (by omega), List.drop_length, List.drop_eq_nil_of_le (by omega)]

end Zkvm.Machine
