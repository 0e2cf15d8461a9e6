import Zkvm.Workspace.Path

/-!
# Answers of the solver

The solver is a program that is asked about one file.  It ends with a code and two outputs, it takes
too long, or it cannot be started.  The table of answers is searched for the path as given, for its
last name, and for the entry `*`; without any of them the solver ends with code one and says
nothing.
-/
set_option autoImplicit false

namespace Zkvm

inductive Answer where
  | ran (code : Int) (out err : String)
  /-- The command that was started did not end in time. -/
  | timedOut (command : String)
  | failed (reason : String)

abbrev Solver := List (String × Answer)

namespace Solver

def answer (solver : Solver) (path : String) : Answer :=
  ((solver.lookup path).or ((solver.lookup (Path.lastPart path)).or (solver.lookup "*"))).getD
    (.ran 1 "" "")

end Solver

namespace Answer

/-- A run that ended well and showed a solution. -/
def solved : Answer → Bool
  | .ran code out _ => code = 0 && Text.mentions out "solution"
  | _ => false

/-- Why there are no outputs, where the run was given this many seconds. -/
def trouble? (seconds : Nat) : Answer → Option String
  | .ran _ _ _ => none
  | .timedOut command => some s!"Command '{command}' timed out after {seconds} seconds"
  | .failed reason => some reason

end Answer

end Zkvm
