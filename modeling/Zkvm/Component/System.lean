import Zkvm.Component.Arithmetic
import Zkvm.Component.Bitwise
import Zkvm.Component.Comparison
import Zkvm.Component.Control
import Zkvm.Component.Crypto
import Zkvm.Component.Stack
import Zkvm.Text.Case

/-!
# Components of all operations
-/
set_option autoImplicit false

namespace Zkvm.Component

open Formula
open Term (wire)

/-- Sample clauses of a system operation; an unknown name has none. -/
def systemClauses (instruction : String) (n : Int) : List Clause :=
  match instruction with
  | "DEBUG" => [.fixWire "a" n (odd n), .fixWire "b" n (odd (n + 1)),
      .wire "out" n (.group (wire "a" n &&& wire "b" n)), .fix "debug" true]
  | "ASSERT" => [.fixWire "cond" n (odd n), .fixWire "expected" n (odd n),
      .wire "ok" n (.group (wire "cond" n &&& wire "expected" n)), .fix "assert" true]
  | "LOG" => [.fixWire "data" n (odd n), .fixWire "level" n (odd (n + 1)),
      .wire "logged" n (.group (wire "data" n ||| wire "level" n)), .fix "log" true]
  | "READ" => [.fixWire "addr" n (odd n), .fixWire "data" n false, .fix "read" true]
  | "WRITE" => [.fixWire "addr" n (odd (n + 1)), .fixWire "data" n true, .fix "write" true]
  | "SEND" => [.fixWire "msg" n (odd n), .fixWire "dest" n true, .fix "send" true]
  | "RECV" => [.fixWire "msg" n (odd (n + 1)), .fixWire "src" n false, .fix "recv" true]
  | "TIME" => [.fixWire "ts" n (odd n), .fix "time" true]
  | "RAND" => [.fixWire "rnd" n (odd (n * 2 + 1)), .fix "rand" true]
  | "ID" => [.fixWire "id" n (odd (n + 1)), .fix "valid" true]
  | _ => []

def systemNibble (instruction : String) (n : Int) : Component :=
  guaranteeing s!"{Text.lower instruction}_nibble_{n}" (systemClauses instruction n) []

def systemNames : List String :=
  ["DEBUG", "ASSERT", "LOG", "READ", "WRITE", "SEND", "RECV", "TIME", "RAND", "ID"]

def single (name other : String) : Component :=
  ofClauses name [.fix name true, .fix other true] (some ["valid=1"]) (some [s!"{name}=1"])

/-- All components of an operation, by its name in capitals; none for any other name. -/
def ofInstruction (instruction : String) : List Component :=
  match instruction with
  | "ADD" => eachNibble addNibble ++ eachPair carryLink
  | "SUB" => eachNibble subNibble ++ eachPair carryLink
  | "MUL" => eachNibble mulPartial
  | "DIV" => eachNibble divNibble ++ eachPair (remainderLink "div")
  | "MOD" => eachNibble modNibble ++ eachPair (remainderLink "mod")
  | "AND" => eachNibble andNibble
  | "OR" => eachNibble orNibble
  | "XOR" => eachNibble xorNibble
  | "NOT" => eachNibble notNibble
  | "SHL" => eachNibble shlNibble ++ eachPair shlCarryLink
  | "SHR" => eachNibble shrNibble ++ eachPair fun lower higher => shrCarryLink higher lower
  | "EQ" => eachNibble eqNibble ++ [eqAggregator]
  | "LT" => eachNibble ltNibble ++ [ltAggregator]
  | "NEQ" => eachNibble neqNibble ++ [neqAggregator]
  | "GT" => eachNibble gtNibble ++ [gtAggregator]
  | "LTE" => eachNibble lteNibble ++ [lteAggregator]
  | "GTE" => eachNibble gteNibble ++ [gteAggregator]
  | "LOAD" | "STORE" => eachNibble addrNibble ++ eachNibble dataNibble
  | "MLOAD" => eachNibble mloadNibble
  | "MSTORE" => eachNibble mstoreNibble
  | "PUSH" => eachNibble pushNibble ++ eachPair pushLink
  | "POP" => eachNibble popNibble ++ eachPair popLink
  | "DUP" => eachNibble dupNibble ++ [dupAggregator]
  | "SWAP" => eachNibble swapNibble ++ [swapAggregator]
  | "HASH" => eachNibble hashNibble ++ eachPair hashLink
  | "VERIFY" => eachNibble verifyNibble ++ [verifyAggregator]
  | "SIGN" => eachNibble signNibble
  | "NOP" => [single "nop" "pc_unchanged"]
  | "HALT" => [single "halt" "pc_hold"]
  | other => if other ∈ systemNames then eachNibble (systemNibble other) else controlFlow other

/-- The operations, family by family. -/
def instructions : List String :=
  ["ADD", "SUB", "MUL", "DIV", "MOD", "AND", "OR", "XOR", "NOT", "SHL", "SHR",
    "EQ", "NEQ", "LT", "GT", "LTE", "GTE",
    "LOAD", "STORE", "MLOAD", "MSTORE", "PUSH", "POP", "DUP", "SWAP",
    "JMP", "JZ", "JNZ", "CALL", "RET", "HASH", "VERIFY", "SIGN", "NOP", "HALT"] ++ systemNames

end Zkvm.Component
