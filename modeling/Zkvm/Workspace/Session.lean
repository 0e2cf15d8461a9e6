import Zkvm.Workspace.Action

/-!
# Sessions

A session is an action that also keeps a state of its own.  Like the workspace, that state stays as
it was left when the action fails.
-/
set_option autoImplicit false

namespace Zkvm

abbrev Session (σ : Type) := ExceptT Failure (StateM (σ × Workspace))

namespace Session

variable {σ α : Type}

def runIn (session : Session σ α) (state : σ) (workspace : Workspace) :
    Except Failure α × σ × Workspace :=
  (ExceptT.run session).run (state, workspace)

/-- An action that leaves the state of the session alone. -/
def act (action : Action α) : Session σ α := do
  let (own, w) ← get
  let (outcome, after) := action.runIn w
  set (own, after)
  match outcome with
  | .ok value => pure value
  | .error failure => throw failure

def own : Session σ σ :=
  return (← get).1

def update (change : σ → σ) : Session σ Unit :=
  modify fun (state, w) => (change state, w)

def withNew (session : Session σ α) (state : σ) : Action α := do
  let (outcome, _, after) := session.runIn state (← get)
  set after
  Action.ofExcept outcome

end Session

end Zkvm
