import Zkvm.Proofs.Machine.History
import Zkvm.Proofs.Machine.Stepped

/-!
# The last writer wins

Memory is written by stores alone, to the cell that an address names from the front or from the
back.  So after any history a cell holds the value of the last store to an address that names it, or
zero; failed stores, loads of programs and inputs do not count.  This holds between any two events
as well, so that a load finds what the last store before it has left.
-/
set_option autoImplicit false

namespace Zkvm.Machine

def Event.source? (event : Event) : Option Int :=
  event.command.source? event.before.stack

def Event.write? (event : Event) : Option Write :=
  event.command.write? event.before.stack

/-- The value that was written last to an address of this cell; zero if none was. -/
def lastWritten (events : List Event) (cell : Int) : Int :=
  let writes := (events.filterMap Event.write?).filter fun write => write.address % 65536 = cell
  (writes.getLast?.map Write.value).getD 0

/-- An address that names a cell lies within the memory's length on either side of zero. -/
theorem cell_eq_ok {use : OffRange} {address : Int} {found : Fin 65536}
    (located : cell use address = .ok found) :
    -65536 ≤ address ∧ address < 65536 ∧ (found : Int) = address % 65536 := by
  unfold cell place at located
  split at located
  · cases located
  · split at located
    · cases located
    · split at located
      · cases located
      · cases located
        refine ⟨by omega, by omega, ?_⟩
        dsimp only
        omega

theorem get_set (memory : Memory) (written cell : Fin 65536) (value : Int) :
    (memory.set written.val value written.isLt).get cell =
      if written.val = cell.val then value else memory.get cell :=
  Vector.getElem_set written.isLt cell.isLt

/-! ## One event -/

theorem lastWritten_silent (past : List Event) {event : Event} (silent : event.write? = none)
    (cell : Int) :
    lastWritten (past ++ [event]) cell = lastWritten past cell := by
  simp [lastWritten, silent]

theorem lastWritten_write (past : List Event) {event : Event} {write : Write}
    (writes : event.write? = some write) (cell : Int) :
    lastWritten (past ++ [event]) cell =
      if write.address % 65536 = cell then write.value else lastWritten past cell := by
  by_cases hit : write.address % 65536 = cell
  · simp [lastWritten, writes, hit]
  · simp [lastWritten, writes, hit]

theorem Opcode.isStore_of_isLoad {opcode : Opcode} (load : opcode.isLoad = true) :
    opcode.isStore = false := by
  cases opcode with
  | load | mload => rfl
  | _ => cases load

/-- A store that succeeds has written what it asks for, to a cell that its address names; no other
command has written anything. -/
theorem memory_stepped {command : Command} {s next : State} {said : List String}
    (stepped : Stepped command s next said) :
    (command.opcode.isStore = false ∧ next.memory = s.memory) ∨
      ∃ write place, command.write? s.stack = some write ∧ cell .write write.address = .ok place ∧
        next.memory = s.memory.set place.val write.value place.isLt := by
  cases stepped with
  | stored write rest place writes located => exact .inr ⟨write, place, writes, located, rfl⟩
  | moved stack counter said notLoad notStore own => exact .inl ⟨notStore, rfl⟩
  | loaded address place kind source located => exact .inl ⟨Opcode.isStore_of_isLoad kind, rfl⟩
  | halted kind | hashed value rest kind taken
  | verified key message signature valid rest kind taken judged
  | received value later kind buffered | written value rest kind taken =>
      exact .inl ⟨by rw [kind]; rfl, rfl⟩

theorem store_stepped {command : Command} {s next : State} {said : List String}
    (stepped : Stepped command s next said) (store : command.opcode.isStore = true) :
    ∃ write, command.write? s.stack = some write ∧ -65536 ≤ write.address ∧
      write.address < 65536 := by
  rcases memory_stepped stepped with ⟨notStore, _⟩ | ⟨write, place, writes, located, _⟩
  · cases notStore.symm.trans store
  · obtain ⟨lower, upper, _⟩ := cell_eq_ok located
    exact ⟨write, writes, lower, upper⟩

theorem load_stepped {command : Command} {s next : State} {said : List String}
    (stepped : Stepped command s next said) (load : command.opcode.isLoad = true) :
    ∃ address, command.source? s.stack = some address ∧ -65536 ≤ address ∧ address < 65536 ∧
      ∃ cell : Fin 65536, (cell : Int) = address % 65536 ∧
        next.stack = s.memory.get cell :: if command.args.isEmpty then s.stack.tail
          else s.stack := by
  cases stepped with
  | loaded address place kind source located =>
      obtain ⟨lower, upper, named⟩ := cell_eq_ok located
      exact ⟨address, source, lower, upper, place, named, rfl⟩
  | stored write rest place writes located =>
      rw [write?_of_not_isStore (Opcode.isStore_of_isLoad load)] at writes
      cases writes
  | moved stack counter said notLoad notStore own => cases notLoad.symm.trans load
  | halted kind | hashed value rest kind taken
  | verified key message signature valid rest kind taken judged
  | received value later kind buffered | written value rest kind taken =>
      rw [kind] at load
      cases load

/-- What is known of an event from the events before it. -/
structure Event.Follows (earlier : List Event) (event : Event) : Prop where
  memory : ∀ cell : Fin 65536, event.before.memory.get cell = lastWritten earlier cell
  store : event.command.opcode.isStore = true →
    ∃ write, event.write? = some write ∧ -65536 ≤ write.address ∧ write.address < 65536
  load : event.command.opcode.isLoad = true →
    ∃ address, event.source? = some address ∧ -65536 ≤ address ∧ address < 65536 ∧
      ∃ cell : Fin 65536, (cell : Int) = address % 65536 ∧
        event.after.stack = event.before.memory.get cell ::
          if event.command.args.isEmpty then event.before.stack.tail else event.before.stack

/-! ## Whole histories -/

/-- The memory of a machine is what its history has written, and was so before every event. -/
structure Remembers (past : List Event) (m : Machine) : Prop where
  memory : ∀ cell : Fin 65536, m.state.memory.get cell = lastWritten past cell
  events : ∀ earlier event later, past = earlier ++ event :: later → event.Follows earlier

section Went
variable {ambient : Ambient} {inspector : Inspector} {past : List Event} {m : Machine}
  {command : Command} {next : State} {said : List String}

theorem follows_went (done : step ambient command m.state = .done next said)
    (memory : ∀ cell : Fin 65536, m.state.memory.get cell = lastWritten past cell) :
    Event.Follows past ⟨command, m.state, (recorded inspector m command next said).state⟩ := by
  have store := store_stepped (stepped done)
  have load := load_stepped (stepped done)
  exact ⟨memory, store, load⟩

theorem lastWritten_went (done : step ambient command m.state = .done next said)
    (memory : ∀ cell : Fin 65536, m.state.memory.get cell = lastWritten past cell)
    (cell : Fin 65536) :
    next.memory.get cell =
      lastWritten (past ++ [⟨command, m.state, (recorded inspector m command next said).state⟩])
        cell := by
  rcases memory_stepped (stepped done) with
    ⟨notStore, kept⟩ | ⟨write, place, writes, located, changed⟩
  · have silent :
        Event.write? ⟨command, m.state, (recorded inspector m command next said).state⟩ = none :=
      write?_of_not_isStore notStore m.state.stack
    rw [lastWritten_silent past silent, kept, memory cell]
  · have written : Event.write? ⟨command, m.state, (recorded inspector m command next said).state⟩ =
      some write :=
      writes
    obtain ⟨_, _, named⟩ := cell_eq_ok located
    rw [lastWritten_write past written, changed, get_set, memory cell, ← named]
    simp only [Int.natCast_inj]

theorem remembers_went (done : step ambient command m.state = .done next said)
    (remembers : Remembers past m) :
    Remembers (past ++ [⟨command, m.state, (recorded inspector m command next said).state⟩])
      (recorded inspector m command next said) := by
  refine ⟨lastWritten_went done remembers.memory, ?_⟩
  intro earlier event later same
  rcases List.eq_nil_or_concat later with rfl | ⟨others, last, rfl⟩
  · -- the event is the new one
    obtain ⟨rfl, single⟩ := List.append_inj' same rfl
    cases single
    exact follows_went done remembers.memory
  · -- the event is one of the past
    rw [List.concat_eq_append, ← List.cons_append, ← List.append_assoc] at same
    obtain ⟨before, _⟩ := List.append_inj' same rfl
    exact remembers.events earlier event others before

end Went

theorem remembers_lasting (ambient : Ambient) (inspector : Inspector) :
    Lasting ambient inspector Remembers where
  went done remembers := remembers_went done remembers
  failed _ remembers := ⟨remembers.memory, remembers.events⟩
  loaded _ remembers := ⟨remembers.memory, remembers.events⟩
  fed _ remembers := ⟨remembers.memory, remembers.events⟩

theorem remembers_fresh : Remembers [] {} := by
  refine ⟨?_, ?_⟩
  · intro cell
    exact Vector.getElem_replicate cell.isLt
  · intro earlier event later same
    have lengths := congrArg List.length same
    simp at lengths

/-- Memory is an array in which the last writer wins.  Take a fresh machine and any script of loads,
inputs and runs, failed ones among them; the trace shows the events of its history.  The memory has
`65536` cells, and each holds the value of the last store that succeeded with an address congruent
to the cell's, or zero.  So it was before every event too: a store that succeeded wrote what it asks
for, and a load that succeeded had an address from `-65536` to `65535` and pushed the cell to which
it is congruent. -/
theorem memory_last_writer_wins (ambient : Ambient) (inspector : Inspector)
    (script : List ScriptStep) :
    let final := afterAll ambient inspector {} script
    let events := history ambient inspector {} script
    final.trace.toList = events.map Event.entry ∧
    final.state.memory.toList.length = 65536 ∧
    (∀ cell : Fin 65536, final.state.memory.get cell = lastWritten events cell) ∧
    ∀ earlier event later, events = earlier ++ event :: later →
      (∀ cell : Fin 65536, event.before.memory.get cell = lastWritten earlier cell) ∧
      (event.command.opcode.isStore = true →
        ∃ write, event.write? = some write ∧ -65536 ≤ write.address ∧ write.address < 65536) ∧
      (event.command.opcode.isLoad = true →
        ∃ address, event.source? = some address ∧ -65536 ≤ address ∧ address < 65536 ∧
          ∃ cell : Fin 65536, (cell : Int) = address % 65536 ∧
            event.after.stack = event.before.memory.get cell ::
              if event.command.args.isEmpty then event.before.stack.tail
              else event.before.stack) := by
  intro final events
  have remembers := (remembers_lasting ambient inspector).fresh script remembers_fresh
  refine ⟨trace_eq_history ambient inspector script, by simp, remembers.memory, ?_⟩
  intro earlier event later same
  have follows := remembers.events earlier event later same
  exact ⟨follows.memory, follows.store, follows.load⟩

/-- A store at `-1`, then one that fails past the end of memory; after another program is loaded,
the cell is read at `65535`. -/
theorem memory_last_writer_wins_alias :
    let ambient : Ambient := ⟨fun _ => 0, fun _ => 0, fun _ => 0⟩
    let script : List ScriptStep :=
      [.load [("push", [5]), ("store", [-1]), ("push", [9]), ("store", [65536])], .execute 10 true,
        .load [("load", [65535])], .execute 10 true]
    ∃ earlier event later, history ambient none {} script = earlier ++ event :: later ∧
      event.command.opcode.isLoad = true ∧ event.source? = some 65535 ∧
        lastWritten earlier 65535 = 5 ∧
      event.after.stack.head? = some 5 := by
  intro ambient script
  have shown : ((history ambient none {} script)[3]?.map fun event =>
      (event.command.opcode.isLoad, event.source?)) = some (true, some 65535) := by decide +kernel
  have written : lastWritten ((history ambient none {} script).take 3) 65535 = 5 := by
    decide +kernel
  obtain ⟨event, atThree, same⟩ := Option.map_eq_some_iff.mp shown
  obtain ⟨load, source⟩ := Prod.mk.inj same
  obtain ⟨present, rfl⟩ := List.getElem?_eq_some_iff.mp atThree
  have split : history ambient none {} script = (history ambient none {} script).take 3 ++
      (history ambient none {} script)[3] :: (history ambient none {} script).drop 4 := by
    rw [← List.drop_eq_getElem_cons present, List.take_append_drop]
  obtain ⟨memory, _, loads⟩ := (memory_last_writer_wins ambient none script).2.2.2 _ _ _ split
  obtain ⟨address, found, _, _, cell, named, pushed⟩ := loads load
  cases source.symm.trans found
  refine ⟨_, _, _, split, load, source, written, ?_⟩
  rw [pushed, List.head?_cons, memory cell, named]
  exact congrArg some written

end Zkvm.Machine
