import Zkvm.Proofs.Machine.StraightLine
import Zkvm.Proofs.Machine.Trace

/-!
# Loading programs

A source is loaded as a whole or not at all: a source that is refused leaves the machine as it was.
A new program starts at its first command, but it does not get new cycles: the limit of a call
counts all cycles of the machine, so a program that is loaded into a machine beyond the limit is not
run at all, and the call succeeds.
-/
set_option autoImplicit false

namespace Zkvm.Machine

/-! ## All or nothing -/

section Refused
variable (ambient : Ambient) (inspector : Inspector) {m : Machine} {source : Source}
  {unknown : UnknownOperation} (refused : m.load? source = .error unknown)
include refused

theorem perform_refused :
    m.perform ambient inspector (.load source) = .error (.unknown unknown) := by
  rw [perform, refused]
  rfl

theorem after_refused : m.after ambient inspector (.load source) = m := by
  rw [after, perform_refused ambient inspector refused]

theorem performAll_refused (script : List ScriptStep) :
    performAll ambient inspector m (.load source :: script) =
      (.error (.unknown unknown), "") :: performAll ambient inspector m script := by
  rw [performAll, perform_refused ambient inspector refused]

end Refused

/-- Loading is all or nothing.  If every name of the source, in lower case, is one of the forty-five
names of operations, the machine has the one program that is spelled like the source, stands at its
start, is not halted, and is otherwise as it was.  If not, the first name that is unknown refuses
the source, as it is written; the machine stays as it was, and every script goes on as if nothing
had been loaded. -/
theorem load_all_or_nothing (ambient : Ambient) (inspector : Inspector) (m : Machine)
    (source : Source) :
    (Opcode.all.map Opcode.name).length = 45 ∧ (Opcode.all.map Opcode.name).Nodup ∧
    ((∀ line ∈ source, Known line.1) →
      ∃ program : List Command, program.map Command.line = source.map lowered ∧
        (∀ other : List Command, other.map Command.line = source.map lowered → other = program) ∧
        m.load? source =
          .ok { m with state := { m.state with program, counter := 0, halted := false } }) ∧
    ((¬ ∀ line ∈ source, Known line.1) →
      ∃ before spelling args rest, source = before ++ (spelling, args) :: rest ∧
        (∀ line ∈ before, Known line.1) ∧ ¬ Known spelling ∧
        m.load? source = .error ⟨spelling⟩ ∧
        (UnknownOperation.mk spelling).message = "Unknown instruction: " ++ spelling ∧
        m.after ambient inspector (.load source) = m ∧
        ∀ script, performAll ambient inspector m (.load source :: script) =
          (.error (.unknown ⟨spelling⟩), "") :: performAll ambient inspector m script) := by
  refine ⟨rfl, Opcode.nodup_names, fun known => ?_, fun unknown => ?_⟩
  · obtain ⟨program, spelled⟩ := exists_program known
    refine ⟨program, spelled, fun other same => ?_, load?_of_parse m (parse_eq_ok_iff.mpr spelled)⟩
    exact List.map_injective_iff.mpr (fun _ _ => line_inj) (same.trans spelled.symm)
  · obtain ⟨before, spelling, args, rest, rfl, known, first⟩ := exists_first_unknown unknown
    have refused : m.load? (before ++ (spelling, args) :: rest) = .error ⟨spelling⟩ := by
      rw [load?, parse_unknown known first]
      rfl
    exact ⟨before, spelling, args, rest, rfl, known, first, refused, rfl,
      after_refused ambient inspector refused, performAll_refused ambient inspector refused⟩

/-! ## Cycles for a new program -/

section Begun
variable (ambient : Ambient) (inspector : Inspector) {m : Machine} {limit : Int}

theorem error_eq_none_of_success {m : Machine} {stop : Stop}
    (success : (m.report stop).success = true) :
    (m.report stop).error = none := by
  cases stop with
  | failed fault => cases success
  | halted | limit | ended => rfl

theorem call_spent (running : m.state.halted = false) (spent : limit ≤ m.state.cycles) :
    m.call ambient inspector limit = (m, m.report .limit) := by
  have budget : (limit - m.state.cycles).toNat = 0 := by omega
  rw [call, run, budget, runFor_zero, running]
  rfl

theorem call_begins (command : Command) (commands : List Command) (room : m.state.cycles < limit)
    (clean : ((m.loaded (command :: commands)).call ambient inspector limit).2.error = none) :
    ∃ entry later, ((m.loaded (command :: commands)).call ambient inspector limit).1.trace.toList =
        m.trace.toList ++ entry :: later ∧
      entry.command = command ∧ entry.cycle = m.state.cycles := by
  have fetched : fetch (command :: commands) (0 : Nat) = .ok command := fetch_front rfl
  have ran := run_fetched ambient inspector (m := m.loaded (command :: commands)) rfl room
    (Int.natCast_pos.mpr (Nat.succ_pos commands.length)) fetched
  rw [call, ran] at clean ⊢
  unfold execute at clean ⊢
  cases stepped : step ambient command (m.loaded (command :: commands)).state with
  | failed left fault =>
      rw [stepped] at clean
      cases clean
  | done next said =>
      simp only
      obtain ⟨_, _, _, cycles, _⟩ := step_done stepped
      obtain ⟨later, grown⟩ := grows_run ambient inspector
        (recorded inspector (m.loaded (command :: commands)) command next said) limit
      rw [recorded, Array.toList_push, List.append_assoc] at grown
      exact ⟨_, later, grown.symm, rfl, cycles⟩

end Begun

/-- Whether a new program is run depends on the cycles that the machine has used before.  Take any
machine and any source that is not empty and whose names are all known.  A call with a limit beyond
the cycles of the machine executes the first command of the new program in the next cycle, or
reports an error.  A call with a limit that the machine has reached already leaves it as it was
loaded, and succeeds; so success with nothing executed is reported exactly then. -/
theorem loaded_program_runs (ambient : Ambient) (inspector : Inspector) (m : Machine)
    (first : String × List Int) (rest : Source) (known : ∀ line ∈ first :: rest, Known line.1)
    (limit : Int) :
    ∃ ready, m.load? (first :: rest) = .ok ready ∧
      let called := ready.call ambient inspector limit
      (m.state.cycles < limit → called.2.error ≠ none ∨
        ∃ entry later, called.1.trace.toList = m.trace.toList ++ entry :: later ∧
          entry.command.line = lowered first ∧ entry.cycle = m.state.cycles) ∧
      (limit ≤ m.state.cycles → called.1 = ready) ∧
      (called.2.success = true ∧ called.1.trace = m.trace ↔ limit ≤ m.state.cycles) := by
  obtain ⟨program, spelled⟩ := exists_program known
  have ready := load?_of_parse m (parse_eq_ok_iff.mpr spelled)
  obtain ⟨command, commands, rfl, here, _⟩ := List.map_eq_cons_iff.mp spelled
  refine ⟨_, ready, ?_⟩
  intro called
  have spent (reached : limit ≤ m.state.cycles) :
      called = (m.loaded (command :: commands), (m.loaded (command :: commands)).report .limit) :=
    call_spent ambient inspector rfl reached
  have begins (room : m.state.cycles < limit) (clean : called.2.error = none) :=
    call_begins ambient inspector command commands room clean
  refine ⟨fun room => ?_,
    fun reached => by rw [spent reached], fun ⟨success, still⟩ => ?_, fun reached => ?_⟩
  · by_cases clean : called.2.error = none
    · obtain ⟨entry, later, grown, same, cycle⟩ := begins room clean
      exact .inr ⟨entry, later, grown, by rw [same, here], cycle⟩
    · exact .inl clean
  · by_contra beyond
    obtain ⟨entry, later, grown, _⟩ := begins (by omega) (error_eq_none_of_success success)
    rw [still] at grown
    simp at grown
  · rw [spent reached]
    exact ⟨rfl, rfl⟩

/-- A machine that has halted after three cycles gets a new program: with a limit of four its first
command is executed, with a limit of three it is not. -/
theorem loaded_program_runs_fourth_cycle :
    let ambient : Ambient := ⟨fun _ => 0, fun _ => 0, fun _ => 0⟩
    let m : Machine := { state := { halted := true, cycles := 3 } }
    let source : Source := [("Push", [7]), ("POP", [])]
    (∀ line ∈ source, Known line.1) ∧
      ∃ ready, m.load? source = .ok ready ∧
        (∃ entry later, (ready.call ambient none 4).1.trace.toList = entry :: later ∧
          entry.command.line = ("push", [7])) ∧
        (ready.call ambient none 3).1 = ready := by
  intro ambient m source
  have known : ∀ line ∈ source, Known line.1 := by decide
  obtain ⟨ready, loads, runs, _⟩ :=
    loaded_program_runs ambient none m ("Push", [7]) [("POP", [])] known 4
  obtain ⟨other, loadsToo, _, still, _⟩ :=
    loaded_program_runs ambient none m ("Push", [7]) [("POP", [])] known 3
  cases loads.symm.trans loadsToo
  refine ⟨known, ready, loads, ?_, still (Int.le_refl 3)⟩
  have same : ready = m.loaded [⟨.push, [7]⟩, ⟨.pop, []⟩] :=
    Except.ok.inj (loads.symm.trans (load?_of_parse m (parse_eq_ok_iff.mpr (by decide))))
  have clean : (ready.call ambient none 4).2.error = none := by
    rw [same]
    rfl
  obtain ⟨entry, later, grown, spelled, _⟩ := (runs (by decide)).resolve_left (absurd clean)
  exact ⟨entry, later, grown, spelled.trans (by decide)⟩

/-- A machine has executed two commands and gets a new program; a call with a limit of one succeeds
and executes nothing. -/
theorem spent_limit_runs_nothing :
    let ambient : Ambient := ⟨fun _ => 0, fun _ => 0, fun _ => 0⟩
    let used := ((({} : Machine).loaded [⟨.nop, []⟩, ⟨.nop, []⟩]).call ambient none 10).1
    Known "push" ∧ ∃ ready, used.load? [("push", [1])] = .ok ready ∧
      (ready.call ambient none 1).2.success = true ∧
        (ready.call ambient none 1).1.trace = used.trace ∧
      (ready.call ambient none 1).1.state.stack = [] := by
  intro ambient used
  have parsed : parse [("push", [1])] = .ok [⟨.push, [1]⟩] := parse_eq_ok_iff.mpr (by decide)
  exact ⟨by decide, _, load?_of_parse used parsed, rfl, rfl, rfl⟩

end Zkvm.Machine
