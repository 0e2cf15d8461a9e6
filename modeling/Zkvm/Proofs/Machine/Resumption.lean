import Zkvm.Proofs.Machine.Turn

/-!
# Runs can be cut anywhere

A call runs the machine up to a limit of cycles and reports.  The limit counts the cycles of all
calls together, so a call that stopped at a smaller limit is continued by the next one exactly where
an uncut call would have gone on; and a machine that has halted or run past its program stays as it
is.
-/
set_option autoImplicit false

namespace Zkvm.Machine

variable (ambient : Ambient) (inspector : Inspector)

/-- One call with a limit of cycles: the machine it leaves, and its report. -/
def call (limit : Int) (m : Machine) : Machine × Report :=
  let (left, stop) := m.run ambient inspector limit
  (left, left.report stop)

/-- Nothing is left to run: the machine has halted, or its counter is past the program. -/
def AtRest (m : Machine) : Prop :=
  m.state.halted = true ∨ m.state.program.length ≤ m.state.counter

/-- What the machine looks like after a run that stopped for a reason. -/
def Stop.Fits (m : Machine) : Stop → Prop
  | .halted => m.state.halted = true
  | .limit => m.state.halted = false
  | .ended => m.state.halted = false ∧ m.state.program.length ≤ m.state.counter
  | .failed _ => m.state.halted = false ∧ m.state.counter < m.state.program.length

/-- A turn that stops the run leaves a machine that fits the reason.  A failed command has not
moved. -/
theorem fits_of_turn {m left : Machine} {stop : Stop}
    (result : turn ambient inspector m = (left, some stop)) : stop.Fits left := by
  cases turned_of_turn ambient inspector result with
  | halted halt => exact halt
  | ended running past => exact ⟨running, past⟩
  | unfetched fault running inside missed => exact ⟨running, inside⟩
  | failed command left fault running inside fetched stepped =>
      obtain ⟨taken, rfl⟩ := step_failed stepped
      exact ⟨running, inside⟩

theorem runFor_fits (budget : Nat) (m : Machine) :
    (runFor ambient inspector budget m).2.Fits (runFor ambient inspector budget m).1 := by
  induction budget generalizing m with
  | zero =>
      rw [runFor_zero]
      cases halt : m.state.halted <;> exact halt
  | succ budget ih =>
      rw [runFor_succ]
      cases result : turn ambient inspector m with
      | mk next stop =>
          cases stop with
          | none => exact ih next
          | some stop => exact fits_of_turn ambient inspector result

theorem run_fits (limit : Int) (m : Machine) :
    (m.run ambient inspector limit).2.Fits (m.run ambient inspector limit).1 :=
  runFor_fits ambient inspector _ m

theorem cycles_of_turn {m next : Machine} (result : turn ambient inspector m = (next, none)) :
    next.state.cycles = m.state.cycles + 1 := by
  cases turned_of_turn ambient inspector result with
  | went command next said running inside fetched stepped =>
      obtain ⟨_, _, _, cycles, _⟩ := step_done stepped
      simp only [recorded, cycles]

theorem cycles_of_turns (count : Nat) {m reached : Machine}
    (went : turns ambient inspector count m = some reached) :
    reached.state.cycles = m.state.cycles + count := by
  induction count generalizing m with
  | zero =>
      cases Option.some.inj went
      rfl
  | succ count ih =>
      obtain ⟨next, result, later⟩ := turn_of_turns_succ ambient inspector went
      have counted := cycles_of_turn ambient inspector result
      have laterCounted := ih later
      omega

theorem cycles_turned {m next : Machine} {stop : Option Stop}
    (turned : Turned ambient inspector m next stop) :
    m.state.cycles ≤ next.state.cycles := by
  cases turned with
  | halted | ended | unfetched => exact Nat.le_refl _
  | failed command left fault running inside fetched stepped =>
      obtain ⟨taken, rfl⟩ := step_failed stepped
      exact Nat.le_refl _
  | went command next said running inside fetched stepped =>
      obtain ⟨_, _, _, cycles, _⟩ := step_done stepped
      simp only [recorded, cycles]
      exact Nat.le_succ _

theorem cycles_run (limit : Int) (m : Machine) :
    m.state.cycles ≤ (m.run ambient inspector limit).1.state.cycles :=
  runFor_keeps ambient inspector
    (fun turned before => Nat.le_trans before (cycles_turned ambient inspector turned)) _
    (Nat.le_refl m.state.cycles)

theorem run_stopped {limit : Int} {m left : Machine} {stop : Stop} (room : m.state.cycles < limit)
    (result : turn ambient inspector m = (left, some stop)) :
    m.run ambient inspector limit = (left, stop) := by
  obtain ⟨budget, split⟩ : ∃ budget : Nat, (limit - m.state.cycles).toNat = budget + 1 :=
    ⟨(limit - m.state.cycles).toNat - 1, by omega⟩
  rw [run, split, runFor_succ, result]

theorem run_went {limit : Int} {m next : Machine} (room : m.state.cycles < limit)
    (result : turn ambient inspector m = (next, none)) :
    m.run ambient inspector limit = next.run ambient inspector limit := by
  have counted := cycles_of_turn ambient inspector result
  have split : (limit - m.state.cycles).toNat = (limit - next.state.cycles).toNat + 1 := by omega
  rw [run, split, runFor_succ, result]
  rfl

/-- A run with cycles left executes the command at the counter and goes on from there, unless it has
failed. -/
theorem run_fetched {limit : Int} {m : Machine} {command : Command}
    (running : m.state.halted = false) (room : m.state.cycles < limit)
    (inside : m.state.counter < m.state.program.length)
    (fetched : fetch m.state.program m.state.counter = .ok command) :
    m.run ambient inspector limit =
      match execute ambient inspector command m with
      | (left, some fault) => (left, .failed fault)
      | (next, none) => next.run ambient inspector limit := by
  unfold execute
  cases stepped : step ambient command m.state with
  | failed left fault =>
      exact run_stopped ambient inspector room
        (turn_of_turned ambient inspector
          (.failed command left fault running inside fetched stepped))
  | done next said =>
      exact run_went ambient inspector room
        (turn_of_turned ambient inspector (.went command next said running inside fetched stepped))

theorem runFor_limit_cycles (budget : Nat) {m reached : Machine}
    (run : runFor ambient inspector budget m = (reached, .limit)) :
    reached.state.cycles = m.state.cycles + budget := by
  induction budget generalizing m with
  | zero =>
      rw [runFor_zero] at run
      cases (Prod.mk.inj run).1
      rfl
  | succ budget ih =>
      rw [runFor_succ] at run
      cases result : turn ambient inspector m with
      | mk next stop =>
          rw [result] at run
          cases stop with
          | none =>
              have counted := cycles_of_turn ambient inspector result
              have later := ih run
              omega
          | some stop =>
              cases (Prod.mk.inj run).2
              cases turned_of_turn ambient inspector result

theorem atRest_of_fits {m : Machine} {stop : Stop} (fits : stop.Fits m)
    (ending : stop = .halted ∨ stop = .ended) : m.AtRest := by
  rcases ending with rfl | rfl
  · exact .inl fits
  · exact .inr fits.2

theorem call_atRest {m : Machine} (rest : m.AtRest) (limit : Int) :
    m.call ambient inspector limit = (m, m.report .halted) := by
  unfold call run
  cases halt : m.state.halted with
  | true => rw [runFor_halted ambient inspector halt]
  | false =>
      have past := rest.resolve_left (by simp [halt])
      cases (limit - m.state.cycles).toNat with
      | zero =>
          rw [runFor_zero, halt]
          rfl
      | succ budget =>
          rw [runFor_succ, turn_ended ambient inspector halt past]
          rfl

/-- The budget of an uncut run, after the part that a smaller limit has used up. -/
theorem budget_split {n limit : Int} (ordered : n ≤ limit) (cycles : Nat) :
    (limit - cycles).toNat =
      (n - cycles).toNat + (limit - (cycles + (n - cycles).toNat : Nat)).toNat := by
  omega

/-- A run up to a limit goes through the run up to a smaller one. -/
theorem run_through {n limit : Int} (ordered : n ≤ limit) (m : Machine) :
    m.run ambient inspector limit =
      match m.run ambient inspector n with
      | (reached, .limit) => reached.run ambient inspector limit
      | ended => ended := by
  unfold run
  rw [budget_split ordered, runFor_add]
  cases result : runFor ambient inspector (n - m.state.cycles).toNat m with
  | mk reached stop =>
      cases stop with
      | limit =>
          have used := runFor_limit_cycles ambient inspector _ result
          simp only [used]
      | halted => rfl
      | ended => rfl
      | failed fault => rfl

theorem call_continues {n limit : Int} (ordered : n ≤ limit) (m : Machine)
    (clean : (m.call ambient inspector n).2.error = none) :
    (m.call ambient inspector n).1.call ambient inspector limit =
      m.call ambient inspector limit := by
  have through := run_through ambient inspector ordered m
  have fits := run_fits ambient inspector n m
  simp only [call] at clean ⊢
  generalize m.run ambient inspector n = first at *
  obtain ⟨reached, stop⟩ := first
  cases stop with
  | limit => rw [through]
  | halted =>
      rw [through]
      exact call_atRest ambient inspector (atRest_of_fits fits (.inl rfl)) limit
  | ended =>
      rw [through]
      exact call_atRest ambient inspector (atRest_of_fits fits (.inr rfl)) limit
  | failed fault => cases clean

theorem call_failed {n limit : Int} (ordered : n ≤ limit) (m : Machine) {text : String}
    (error : (m.call ambient inspector n).2.error = some text) :
    m.call ambient inspector limit = m.call ambient inspector n := by
  have through := run_through ambient inspector ordered m
  simp only [call] at error ⊢
  generalize m.run ambient inspector n = first at *
  obtain ⟨reached, stop⟩ := first
  cases stop with
  | limit | halted | ended => cases error
  | failed fault => rw [through]

/-- A machine that a call has brought to rest is not changed by any later call. -/
theorem call_fixed (n : Int) (m : Machine) (rest : (m.call ambient inspector n).1.AtRest)
    (later : Int) :
    (m.call ambient inspector n).1.call ambient inspector later = m.call ambient inspector n := by
  have fits := run_fits ambient inspector n m
  rw [call_atRest ambient inspector rest]
  simp only [call] at rest ⊢
  generalize m.run ambient inspector n = first at *
  obtain ⟨reached, stop⟩ := first
  cases stop with
  | limit | halted | ended => rfl
  | failed fault =>
      -- a failed command has neither halted the machine nor moved its counter
      obtain ⟨running, inside⟩ := fits
      rcases rest with halt | past
      · cases running.symm.trans halt
      · exact absurd past (Int.not_le.mpr inside)

/-- Runs can be cut anywhere.  A call with a limit `n` that reports no error, followed by one with a
limit that is no smaller, leaves the same machine, with all it has recorded and printed, and the
same report as the second call alone; a call that reports an error is what the call with the larger
limit comes to as well. Hence a run that ends by halting or past the program's end brings the
machine to rest, and a machine that a call has brought to rest is a fixed point of all calls. -/
theorem call_cut_anywhere (m : Machine) (n limit : Int) (ordered : n ≤ limit) :
    ((m.call ambient inspector n).2.error = none →
      (m.call ambient inspector n).1.call ambient inspector limit =
        m.call ambient inspector limit) ∧
    (∀ text, (m.call ambient inspector n).2.error = some text →
      m.call ambient inspector limit = m.call ambient inspector n) ∧
    ((m.run ambient inspector n).2 = .halted ∨ (m.run ambient inspector n).2 = .ended →
      (m.call ambient inspector n).1.AtRest) ∧
    ((m.call ambient inspector n).1.AtRest → ∀ later,
      (m.call ambient inspector n).1.call ambient inspector later =
        m.call ambient inspector n) := by
  refine ⟨call_continues ambient inspector ordered m,
    fun _ => call_failed ambient inspector ordered m, ?_, call_fixed ambient inspector n m⟩
  exact atRest_of_fits (run_fits ambient inspector n m)

/-- Four commands that never end, cut after the third cycle and in the middle of the loop. -/
theorem call_cut_anywhere_loop :
    let ambient : Ambient := ⟨fun _ => 0, fun _ => 0, fun _ => 0⟩
    let m : Machine :=
      { state := { program := [⟨.push, [7]⟩, ⟨.log, []⟩, ⟨.recv, []⟩, ⟨.jmp, [0]⟩] } }
    (3 : Int) ≤ 10 ∧ (m.call ambient none 3).2.error = none ∧
      (m.call ambient none 3).1.call ambient none 10 = m.call ambient none 10 :=
  ⟨by decide, rfl, (call_cut_anywhere _ none _ 3 10 (by decide)).1 rfl⟩

end Zkvm.Machine
