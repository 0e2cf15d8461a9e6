import Zkvm.Proofs.Machine.Turn

/-!
# Programs that ask nothing of the outside

Three operations push what the machine learns from outside: the time, a random number, an
identifier.  A command that is none of them does the same whatever the outside would have answered.
-/
set_option autoImplicit false

namespace Zkvm.Machine

/-- The operations whose result comes from outside. -/
def Opcode.isAmbient : Opcode → Bool
  | .time | .rand | .id => true
  | _ => false

/-- No command of the program asks the outside for anything. -/
def SelfContained (program : List Command) : Prop :=
  ∀ command ∈ program, command.opcode.isAmbient = false

instance (program : List Command) : Decidable (SelfContained program) :=
  inferInstanceAs (Decidable (∀ command ∈ program, command.opcode.isAmbient = false))

theorem step_ambient (first second : Ambient) {command : Command}
    (free : command.opcode.isAmbient = false) (s : State) :
    step first command s = step second command s := by
  obtain ⟨opcode, args⟩ := command
  cases opcode with
  | time | rand | id => cases free
  | _ => rfl

theorem mem_of_fetch {program : List Command} {counter : Int} {command : Command}
    (fetched : fetch program counter = .ok command) : command ∈ program := by
  unfold fetch at fetched
  split at fetched
  · cases fetched
  · dsimp only at fetched
    generalize (if counter < 0 then counter + program.length else counter) = place at fetched
    split at fetched
    · cases fetched
    · split at fetched
      · next found =>
          cases fetched
          exact List.mem_of_getElem? found
      · cases fetched

/-- A command that a self-contained program comes to does the same under any two ambients. -/
theorem step_of_fetch (first second : Ambient) {s : State} {command : Command}
    (selfContained : SelfContained s.program) (fetched : fetch s.program s.counter = .ok command) :
    step first command s = step second command s :=
  step_ambient first second (selfContained command (mem_of_fetch fetched)) s

end Zkvm.Machine
