import Zkvm.Proofs.Machine.Aftermath
import Zkvm.Proofs.Machine.History
import Zkvm.Proofs.Machine.Resumption

/-!
# Where the counter may stand

A counter past the end of the program ends the run, but one before its front does not: as many
places as the program is long, a negative counter names a command from the back, and that command is
executed.  Only a counter that lies before even those stops the run, as a failure.  A counter can
only become negative by a jump to a negative place, since every other command moves it on by one or
leaves it.
-/
set_option autoImplicit false

namespace Zkvm.Machine

/-! ## What is fetched -/

section Fetch
variable {program : List Command} {counter : Int}

theorem place_eq_emod (lower : -program.length ≤ counter) (upper : counter < program.length) :
    (if counter < 0 then counter + program.length else counter) = counter % program.length := by
  split
  · rw [← Int.add_emod_right, Int.emod_eq_of_lt (by omega) (by omega)]
  · rw [Int.emod_eq_of_lt (by omega) upper]

theorem fetch_within (least : leastPlace ≤ counter) (lower : -program.length ≤ counter)
    (upper : counter < program.length) :
    ∃ command, program[(counter % program.length).toNat]? = some command ∧
      fetch program counter = .ok command := by
  have start : 0 ≤ counter % program.length := Int.emod_nonneg counter (by omega)
  have inside : counter % program.length < program.length := Int.emod_lt_of_pos counter (by omega)
  have present : (counter % program.length).toNat < program.length := by omega
  have found := List.getElem?_eq_getElem present
  refine ⟨_, found, ?_⟩
  simp only [fetch, place_eq_emod lower upper, if_neg (Int.not_lt.mpr least),
    if_neg (Int.not_lt.mpr start), found]

/-- There is no command before those that are counted from the back, nor at a number that is no
place at all. -/
theorem fetch_before (before : counter < -program.length ∨ counter < leastPlace) :
    fetch program counter =
      .error (.offRange (if counter < leastPlace then .number else .read)) := by
  unfold fetch
  split
  · rfl
  · next least =>
      have negative : counter < 0 := by omega
      have outside : counter + program.length < 0 := by omega
      simp only [if_pos negative, if_pos outside]

theorem fetch_past (past : program.length ≤ counter) :
    fetch program counter = .error (.offRange .read) := by
  have least : ¬ counter < leastPlace := by
    unfold leastPlace
    omega
  have notNegative : ¬ counter < 0 := by omega
  have missing : program[counter.toNat]? = none := List.getElem?_eq_none (by omega)
  simp only [fetch, if_neg least, if_neg notNegative, missing]

theorem bounds_of_fetch {command : Command} (fetched : fetch program counter = .ok command) :
    -program.length ≤ counter ∧ counter < program.length ∧
      program[(counter % program.length).toNat]? = some command := by
  by_cases past : program.length ≤ counter
  · cases (fetch_past past).symm.trans fetched
  · by_cases before : counter < -program.length ∨ counter < leastPlace
    · cases (fetch_before before).symm.trans fetched
    · obtain ⟨other, found, fetchedOther⟩ :
          ∃ other, program[(counter % program.length).toNat]? = some other ∧
          fetch program counter = .ok other := fetch_within (by omega) (by omega) (by omega)
      cases fetchedOther.symm.trans fetched
      exact ⟨by omega, by omega, found⟩

end Fetch

/-! ## Events -/

section Events
variable {ambient : Ambient} {inspector : Inspector}

theorem fetch_of_mem_eventsFor (budget : Nat) {m : Machine} {event : Event}
    (member : event ∈ eventsFor ambient inspector budget m) :
    fetch event.before.program event.before.counter = .ok event.command := by
  induction budget generalizing m with
  | zero => cases member
  | succ budget ih =>
      cases result : turn ambient inspector m with
      | mk next stop =>
          have turned := turned_of_turn ambient inspector result
          cases turned with
          | halted | ended | unfetched | failed =>
              rw [eventsFor_stopped ambient inspector budget result] at member
              cases member
          | went command next said running inside fetched done =>
              rw [eventsFor_went ambient inspector budget (turned_of_turn ambient inspector result)
                fetched] at member
              rcases List.mem_cons.mp member with rfl | later
              · exact fetched
              · exact ih later

theorem fetch_of_mem_history (script : List ScriptStep) {m : Machine} {event : Event}
    (member : event ∈ history ambient inspector m script) :
    fetch event.before.program event.before.counter = .ok event.command := by
  induction script generalizing m with
  | nil => cases member
  | cons step rest ih =>
      rcases List.mem_append.mp member with here | later
      · unfold eventsOf at here
        split at here
        · exact fetch_of_mem_eventsFor _ here
        · cases here
      · exact ih later

/-- The event jumped to a place before the front of the program. -/
def Event.LeapsBack (event : Event) : Prop :=
  ∃ target < 0, event.command.jump? event.before.stack = some target ∧ event.after.counter = target

theorem leapsBack_of_negative {command : Command} {m : Machine} {next : State} {said : List String}
    (done : step ambient command m.state = .done next said) (negative : next.counter < 0)
    (front : 0 ≤ m.state.counter) :
    Event.LeapsBack ⟨command, m.state, (recorded inspector m command next said).state⟩ := by
  have goes := counter_of_step done
  unfold Command.nextCounter at goes
  cases jumps : command.jump? m.state.stack with
  | some target =>
      rw [jumps, Option.getD_some] at goes
      exact ⟨target, by omega, jumps, goes⟩
  | none =>
      rw [jumps, Option.getD_none] at goes
      split at goes <;> omega

/-- A counter that is negative has been brought there by a jump to a negative place. -/
theorem lasting_leapsBack : Lasting ambient inspector fun past m =>
    m.state.counter < 0 → ∃ jump ∈ past, jump.LeapsBack := by
  refine ⟨?_, fun _ known => known, ?_, fun _ known => known⟩
  · intro past m command next said done known negative
    by_cases front : 0 ≤ m.state.counter
    · exact ⟨_, List.mem_append_right past (List.mem_singleton_self _),
        leapsBack_of_negative done negative front⟩
    · obtain ⟨jump, member, leaps⟩ := known (by omega)
      exact ⟨jump, List.mem_append_left _ member, leaps⟩
  · intro past m program known negative
    cases negative

end Events

/-! ## Rounds of a run -/

section Rounds
variable {ambient : Ambient} {inspector : Inspector} {m : Machine} {limit : Int}
  (running : m.state.halted = false) (room : m.state.cycles < limit)
include running room

theorem run_past (past : m.state.program.length ≤ m.state.counter) :
    m.run ambient inspector limit = (m, .ended) :=
  run_stopped ambient inspector room (turn_ended ambient inspector running past)

theorem run_before
    (before : m.state.counter < -m.state.program.length ∨ m.state.counter < leastPlace) :
    m.run ambient inspector limit =
      (m, .failed (.offRange (if m.state.counter < leastPlace then .number else .read))) := by
  have inside : m.state.counter < m.state.program.length := by
    unfold leastPlace at before
    omega
  have missed :=
    turn_of_turned ambient inspector (.unfetched _ running inside (fetch_before before))
  exact run_stopped ambient inspector room missed

theorem run_within (least : leastPlace ≤ m.state.counter)
    (lower : -m.state.program.length ≤ m.state.counter)
    (upper : m.state.counter < m.state.program.length) :
    ∃ command, m.state.program[(m.state.counter % m.state.program.length).toNat]? = some command ∧
      m.run ambient inspector limit =
        match execute ambient inspector command m with
        | (left, some fault) => (left, .failed fault)
        | (next, none) => next.run ambient inspector limit := by
  obtain ⟨command, found, fetched⟩ := fetch_within least lower upper
  exact ⟨command, found, run_fetched ambient inspector running room upper fetched⟩

end Rounds

/-- Where the counter stands when a command is executed.  A running machine with cycles left ends
its run at a counter past the program, and fails at one that lies further before the front than the
program is long or that is no place at all; it is left as it was in both cases.  At any other
counter, a negative one included, it executes the command to whose place the counter is congruent.
So it is in the history of every script: the counter of an event lies within the program's length on
either side of zero, and it is negative only if an earlier command has jumped, to an argument or to
what a return took off the stack, to a negative place. -/
theorem counter_within_reach (ambient : Ambient) (inspector : Inspector) :
    (∀ (m : Machine) (limit : Int), m.state.halted = false → m.state.cycles < limit →
      (m.state.program.length ≤ m.state.counter → m.run ambient inspector limit = (m, .ended)) ∧
      (m.state.counter < -m.state.program.length ∨ m.state.counter < leastPlace →
        m.run ambient inspector limit =
          (m, .failed (.offRange (if m.state.counter < leastPlace then .number else .read)))) ∧
      (leastPlace ≤ m.state.counter → -m.state.program.length ≤ m.state.counter →
        m.state.counter < m.state.program.length →
        ∃ command, m.state.program[(m.state.counter % m.state.program.length).toNat]? =
          some command ∧
          m.run ambient inspector limit =
            match execute ambient inspector command m with
            | (left, some fault) => (left, .failed fault)
            | (next, none) => next.run ambient inspector limit)) ∧
    ∀ (script : List ScriptStep) (earlier later : List Event) (event : Event),
      history ambient inspector {} script = earlier ++ event :: later →
      -event.before.program.length ≤ event.before.counter ∧
      event.before.counter < event.before.program.length ∧
      event.before.program[(event.before.counter % event.before.program.length).toNat]? =
        some event.command ∧
      (event.before.counter < 0 → ∃ jump ∈ earlier, ∃ target < 0,
        jump.command.jump? jump.before.stack = some target ∧ jump.after.counter = target) := by
  constructor
  · intro m limit running room
    exact ⟨run_past running room, run_before running room, run_within running room⟩
  · intro script earlier later event same
    have member : event ∈ history ambient inspector {} script := by
      rw [same]
      exact List.mem_append_right earlier List.mem_cons_self
    obtain ⟨lower, upper, found⟩ := bounds_of_fetch (fetch_of_mem_history script member)
    refine ⟨lower, upper, found, ?_⟩
    obtain ⟨m, before, leaps⟩ :=
      lasting_leapsBack.before script (fun negative => by cases negative) same
    rw [← before]
    exact leaps

/-- A jump to `-1`: the last command is executed there, with the jump in its past; at `-3` there is
nothing. -/
theorem counter_within_reach_wrapped :
    let ambient : Ambient := ⟨fun _ => 0, fun _ => 0, fun _ => 0⟩
    let script : List ScriptStep := [.load [("jmp", [-1]), ("halt", [])], .execute 10 true]
    let m : Machine := { state := { program := [⟨.jmp, [-1]⟩, ⟨.halt, []⟩], counter := -3 } }
    m.run ambient none 10 = (m, .failed (.offRange .read)) ∧
    ∃ earlier event later, history ambient none {} script = earlier ++ event :: later ∧
      event.before.counter = -1 ∧ event.before.program[1]? = some event.command ∧
      ∃ jump ∈ earlier, jump.after.counter < 0 := by
  intro ambient script m
  have shown : ((history ambient none {} script)[1]?.map fun event =>
      (event.before.counter, event.before.program.length)) = some (-1, 2) := by decide +kernel
  obtain ⟨event, atOne, same⟩ := Option.map_eq_some_iff.mp shown
  obtain ⟨counter, length⟩ := Prod.mk.inj same
  obtain ⟨present, rfl⟩ := List.getElem?_eq_some_iff.mp atOne
  have split : history ambient none {} script = (history ambient none {} script).take 1 ++
      (history ambient none {} script)[1] :: (history ambient none {} script).drop 2 := by
    rw [← List.drop_eq_getElem_cons present, List.take_append_drop]
  obtain ⟨rounds, events⟩ := counter_within_reach ambient none
  obtain ⟨_, _, found, leaps⟩ := events script _ _ _ split
  obtain ⟨jump, member, target, negative, _, reached⟩ := leaps (by rw [counter]; decide)
  rw [counter, length] at found
  refine ⟨(rounds m 10 rfl (by decide)).2.1 (.inl (by decide)), _, _, _, split, counter, found,
    jump, member, ?_⟩
  rw [reached]
  exact negative

/-- Not every command is executed at a counter within the program. -/
theorem negative_counter_executes :
    ¬ ∀ (ambient : Ambient) (inspector : Inspector) (script : List ScriptStep),
      ∀ event ∈ history ambient inspector {} script,
        0 ≤ event.before.counter ∧ event.before.counter < event.before.program.length := by
  intro within
  let ambient : Ambient := ⟨fun _ => 0, fun _ => 0, fun _ => 0⟩
  let script : List ScriptStep := [.load [("jmp", [-1]), ("halt", [])], .execute 10 true]
  have shown :
      ((history ambient none {} script)[1]?.map fun event => event.before.counter) = some (-1) := by
    decide +kernel
  obtain ⟨event, atOne, counter⟩ := Option.map_eq_some_iff.mp shown
  obtain ⟨front, _⟩ := within ambient none script event (List.mem_of_getElem? atOne)
  omega

end Zkvm.Machine
