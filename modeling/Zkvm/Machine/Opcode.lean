import Zkvm.Text.Case

/-!
# Operations of the machine

The forty-five operations and their names.  A name is looked up by its lower case, so that any
spelling of the letters will do.
-/
set_option autoImplicit false

namespace Zkvm.Machine

inductive Opcode where
  | add | sub | mul | div | mod | and | or | xor | not | shl | shr | eq | neq | lt | gt | lte
  | gte | load | store | mload | mstore | push | pop | dup | swap | jmp | jz | jnz | call | ret
  | hash | verify | sign | halt | nop | debug | assert | log | read | write | send | recv
  | time | rand | id
  deriving DecidableEq

namespace Opcode

def name : Opcode → String
  | .add => "add"
  | .sub => "sub"
  | .mul => "mul"
  | .div => "div"
  | .mod => "mod"
  | .and => "and"
  | .or => "or"
  | .xor => "xor"
  | .not => "not"
  | .shl => "shl"
  | .shr => "shr"
  | .eq => "eq"
  | .neq => "neq"
  | .lt => "lt"
  | .gt => "gt"
  | .lte => "lte"
  | .gte => "gte"
  | .load => "load"
  | .store => "store"
  | .mload => "mload"
  | .mstore => "mstore"
  | .push => "push"
  | .pop => "pop"
  | .dup => "dup"
  | .swap => "swap"
  | .jmp => "jmp"
  | .jz => "jz"
  | .jnz => "jnz"
  | .call => "call"
  | .ret => "ret"
  | .hash => "hash"
  | .verify => "verify"
  | .sign => "sign"
  | .halt => "halt"
  | .nop => "nop"
  | .debug => "debug"
  | .assert => "assert"
  | .log => "log"
  | .read => "read"
  | .write => "write"
  | .send => "send"
  | .recv => "recv"
  | .time => "time"
  | .rand => "rand"
  | .id => "id"

/-- All operations, by group: arithmetic, bits, comparison, memory, stack, control, cryptography,
system, input and output, ambient values. -/
def all : List Opcode := [
  .add, .sub, .mul, .div, .mod, .and, .or, .xor, .not, .shl, .shr, .eq, .neq, .lt, .gt, .lte,
  .gte, .load, .store, .mload, .mstore, .push, .pop, .dup, .swap, .jmp, .jz, .jnz, .call, .ret,
  .hash, .verify, .sign, .halt, .nop, .debug, .assert, .log, .read, .write, .send, .recv,
  .time, .rand, .id]

def ofName? (name : String) : Option Opcode :=
  all.find? (·.name == name)

def ofSpelling? (spelling : String) : Option Opcode :=
  ofName? (Text.lower spelling)

/-- Operations on whole words, which are checked one nibble at a time. -/
def isWordwise : Opcode → Bool
  | .add | .sub | .mul | .div | .mod => true
  | .and | .or | .xor | .not | .shl | .shr => true
  | .eq | .neq | .lt | .gt | .lte | .gte => true
  | _ => false

end Opcode

end Zkvm.Machine
