import Zkvm.Machine.Record

/-!
# Scripts for the machine

A script leads one machine through several steps: it loads programs, feeds inputs, runs and looks at
the memory. Every step gives the fields of an answer or is refused; a step that is refused leaves
the machine as it was.
-/
set_option autoImplicit false

namespace Zkvm.Machine

inductive ScriptStep where
  | load (source : Source)
  | feed (values : List Int)
  /-- Runs up to a number of cycles in all, and shows the whole trace or its length. -/
  | execute (limit : Int) (whole : Bool)
  /-- Runs a number of cycles further. -/
  | advance (cycles : Int) (whole : Bool)
  | peek (addresses : List Int)
  | dump

inductive ScriptRefusal where
  | unknown (operation : UnknownOperation)
  | offRange (cause : OffRange)

def ScriptRefusal.message : ScriptRefusal → String
  | .unknown operation => operation.message
  | .offRange cause => cause.text

def namedProgram (name : String) : Source :=
  if name = "simple" then sumProgram else fibonacciProgram

namespace ScriptStep

def ofJson (step : Json) : ScriptStep :=
  let whole := ((step.get? "trace").map Json.toBool).getD true
  let number (key : String) (default : Int) := ((step.get? key).map Json.toInt).getD default
  match (step.field "do").toText with
  | "load" => .load (Source.ofJson (step.field "program"))
  | "builtin" => .load (namedProgram (step.field "name").toText)
  | "input" => .feed (step.field "values").toInts
  | "execute" => .execute (number "max_cycles" 10000) whole
  | "step" => .advance (number "n" 1) whole
  | "peek" => .peek (step.field "addrs").toInts
  | _ => .dump

end ScriptStep

def runReported (ambient : Ambient) (inspector : Inspector) (m : Machine) (limit : Int)
    (whole : Bool) :
    List (String × Json) × Machine :=
  let (next, stop) := m.run ambient inspector limit
  ((next.report stop).fields whole, next)

def perform (ambient : Ambient) (inspector : Inspector) (m : Machine) :
    ScriptStep → Except ScriptRefusal (List (String × Json) × Machine)
  | .load source => ((m.load? source).map fun next => ([], next)).mapError .unknown
  | .feed values => .ok ([], m.feed values)
  | .execute limit whole => .ok (m.runReported ambient inspector limit whole)
  | .advance cycles whole => .ok (m.runReported ambient inspector (m.state.cycles + cycles) whole)
  | .peek addresses =>
    ((addresses.mapM fun address =>
        (place .read address).map fun i => Json.int (m.state.memory.get i)).map
      fun found => ([("values", .arr found)], m)).mapError .offRange
  | .dump => .ok (m.dump, m)

def saidSince (before after : Machine) : String :=
  String.join ((after.said.toList.drop before.said.size).map (· ++ "\n"))

/-- Performs the steps of a script one after another.  Each gives its answer and what the machine
said meanwhile. -/
def performAll (ambient : Ambient) (inspector : Inspector) (m : Machine) :
    List ScriptStep → List (Except ScriptRefusal (List (String × Json)) × String)
  | [] => []
  | step :: rest =>
    match m.perform ambient inspector step with
    | .ok (fields, next) => (.ok fields, m.saidSince next) :: performAll ambient inspector next rest
    | .error refusal => (.error refusal, "") :: performAll ambient inspector m rest

def Source.json (source : Source) : Json :=
  .arr (source.map fun (name, args) => .arr [.str name, .ints args])

end Zkvm.Machine
