import Zkvm.Contract.Instruction.Control

/-!
# Contracts of system instructions
-/
set_option autoImplicit false

namespace Zkvm.Contract.Instruction

open Term (wire)

def nopPart : Part Place :=
  single "NOP" <|
    ofClauses "nop" ["valid=1"] ["no_state_change"] ([.fix "nop" true] ++ byteInputs ["p", "n"])

def haltPart : Part Place :=
  single "HALT" <| ofClauses "halt" ["valid=1"] ["execution_halted"]
    ([.fix "halt" true] ++ (List.range 8).flatMap fun (i : Nat) =>
      [.fixWire "p" i false, .wire "n" i (wire "p" i)])

def nibbleInputs (row : String) : List Clause :=
  (List.range 4).map fun (i : Nat) => .fixWire row i false

def passOn (source row : String) : List Clause :=
  (List.range 4).flatMap fun (i : Nat) => [.fixWire source i false, .wire row i (wire source i)]

/-- A nibble of a system instruction: `word` is its name in small letters. -/
def systemNibble (word : String) (assumptions : List String) (guarantees : Int → List String)
    (clauses : List Clause) (nibble : Int) : Part Place :=
  ofNibble s!"{Text.upper word}_N{nibble}" nibble <|
    ofClauses s!"{word}_nibble_{nibble}" assumptions (guarantees nibble) clauses

def debugNibble : Int → Part Place :=
  systemNibble "debug" ["valid=1"] (fun n => [s!"debug_output_nibble_{n}"])
    (passOn "d" "o" ++ [.fix "debug" true])

def assertNibble : Int → Part Place :=
  systemNibble "assert" ["valid=1"] (fun n => [s!"assertion_checked_nibble_{n}"])
    (((List.range 4).flatMap fun (i : Nat) => [.fixWire "c" i false, .fixWire "e" i false]) ++
      [.define "ok" (.joined .both ((List.range 4).map fun (i : Nat) =>
          .group (wire "c" i ^^^ wire "e" i ^^^ .bit true))),
        .define "err" (.flipped (.var "ok"))])

def logNibble : Int → Part Place :=
  systemNibble "log" ["valid=1"] (fun n => [s!"log_output_nibble_{n}"])
    (passOn "d" "l" ++ [.fix "level" false, .fix "log" true])

def readNibble : Int → Part Place :=
  systemNibble "read" ["valid=1", "channel_ready=1"] (fun n => [s!"read_data_nibble_{n}"])
    (passOn "i" "r" ++ nibbleInputs "ch" ++ [.fix "read" true])

def writeNibble : Int → Part Place :=
  systemNibble "write" ["valid=1", "channel_available=1"] (fun n => [s!"write_data_nibble_{n}"])
    (passOn "d" "w" ++ nibbleInputs "ch" ++ [.fix "write" true])

def sendNibble : Int → Part Place :=
  systemNibble "send" ["valid=1", "network_ready=1"] (fun n => [s!"send_data_nibble_{n}"])
    (passOn "d" "s" ++ nibbleInputs "dst" ++ [.fix "send" true, .fix "net" true])

def recvNibble : Int → Part Place :=
  systemNibble "recv" ["valid=1", "data_available=1"]
    (fun n => [s!"recv_data_nibble_{n}", "source_validated"])
    (passOn "i" "r" ++ nibbleInputs "src" ++ [.fix "recv" true, .fix "avail" true])

/-- The lowest nibble is the clock itself; in the others each bit is mixed with the one before
it. -/
def timeNibble (nibble : Int) : Part Place :=
  let value (i : Nat) : Term :=
    if nibble = 0 then wire "clock" i
    else .group (wire "clock" i ^^^ .flipped (wire "t" ((i + 3) % 4 : Nat)))
  systemNibble "time" ["system_clock_valid=1"]
    (fun n => [s!"timestamp_nibble_{n}", "monotonic_time"])
    (nibbleInputs "clock" ++ ((List.range 4).map fun (i : Nat) => .wire "t" i (value i)) ++
      [.fix "time" true, .fix "valid" true]) nibble

/-- The lowest nibble is the seed; the others are one step of a shift register with feedback. -/
def randNibble (nibble : Int) : Part Place :=
  let step : List Clause :=
    if nibble = 0 then [.fix "s0" true, .fix "s1" false, .fix "s2" true, .fix "s3" false]
    else [.define "feedback" (.group (wire "state" 3 ^^^ wire "state" 2)),
      .define "s0" (.var "feedback"), .define "s1" (wire "state" 0), .define "s2" (wire "state" 1),
      .define "s3" (wire "state" 2)]
  systemNibble "rand" ["entropy_available=1"]
    (fun n => [s!"random_nibble_{n}", "uniform_distribution"])
    (nibbleInputs "state" ++ step ++ [.fix "rand" true, .fix "entropy" true]) nibble

/-- The lower nibbles are those of the process, the upper ones those of the thread. -/
def idNibble (nibble : Int) : Part Place :=
  let source := if nibble < 4 then "pid" else "tid"
  systemNibble "id" ["process_valid=1"] (fun n => [s!"id_nibble_{n}", "unique_identifier"])
    (nibbleInputs "pid" ++ nibbleInputs "tid" ++
      ((List.range 4).map fun (i : Nat) => .wire "id" i (wire source i)) ++
      [.fix "getid" true, .fix "valid" true]) nibble

def system (nibbles : Int) (operation : String) : Plan Place :=
  let each (word : String) (part : Int → Part Place) :=
    eachNibble nibbles (fun i => s!"{word}_nibble_{i}") part
  match Text.upper operation with
  | "NOP" => [("nop", nopPart)]
  | "HALT" => [("halt", haltPart)]
  | "DEBUG" => each "debug" debugNibble
  | "ASSERT" => each "assert" assertNibble
  | "LOG" => each "log" logNibble
  | "READ" => each "read" readNibble
  | "WRITE" => each "write" writeNibble
  | "SEND" => each "send" sendNibble
  | "RECV" => each "recv" recvNibble
  | "TIME" => each "time" timeNibble
  | "RAND" => each "rand" randNibble
  | "ID" => each "id" idNibble
  | _ => []

end Zkvm.Contract.Instruction
