import Zkvm.Machine.Step

/-!
# A machine of 32-bit words

The machine as it would be built in hardware: stack, memory, buffers and program counter hold words
of thirty-two bits.  Sums, differences and products wrap round, quotients, remainders, comparisons
and addresses are unsigned, shifts are logical with the count taken modulo thirty-two.  Hashing a
word gives the word itself, a signature is the exclusive or of message and key, and it is valid if
the exclusive or of all three words is odd.  An address is either one of the `65536` cells or
invalid: there is no other way to miss.
-/
set_option autoImplicit false

namespace Zkvm.WordMachine

open Machine (Opcode Shortage Lack Ambient)

abbrev Word := BitVec 32

structure Command where
  opcode : Opcode
  args : List Word

structure State where
  stack : List Word := []
  memory : Vector Word 65536 := Vector.replicate 65536 0
  counter : Word := 0
  program : List Command := []
  halted : Bool := false
  cycles : Nat := 0
  lastHash : Option Word := none
  signatures : List (Word × Bool) := []
  inputs : List Word := []
  outputs : List Word := []

inductive Fault where
  | underflow (opcode : Opcode) (shortage : Shortage)
  | lacks (opcode : Opcode) (lack : Lack)
  | divisionByZero
  | moduloByZero
  | invalidAddress (address : Word)
  | assertionFailed

inductive Outcome where
  | done (next : State) (said : List String)
  | failed (left : State) (fault : Fault)

def flag (holds : Bool) : Word :=
  if holds then 1 else 0

/-- The verdict on a message takes the place of an earlier one, or else goes to the end. -/
def recordSignature (message : Word) (valid : Bool) : List (Word × Bool) → List (Word × Bool)
  | [] => [(message, valid)]
  | (m, v) :: rest =>
    if m = message then (message, valid) :: rest else (m, v) :: recordSignature message valid rest

def State.advance (s : State) (stack : List Word) : State :=
  { s with stack, counter := s.counter + 1 }

def binary (opcode : Opcode) (f : Word → Word → Word) (s : State) : Outcome :=
  match s.stack with
  | b :: a :: rest => .done (s.advance (f a b :: rest)) []
  | _ => .failed s (.underflow opcode .two)

def divide (opcode : Opcode) (fault : Fault) (f : Word → Word → Word) (s : State) : Outcome :=
  match s.stack with
  | b :: a :: rest =>
    if b = 0 then .failed { s with stack := rest } fault else .done (s.advance (f a b :: rest)) []
  | _ => .failed s (.underflow opcode .two)

def consume (opcode : Opcode) (shortage : Shortage) (f : Word → List Word → Outcome) (s : State) :
    Outcome :=
  match s.stack with
  | a :: rest => f a rest
  | [] => .failed s (.underflow opcode shortage)

def readCell (s : State) (address : Word) (rest : List Word) : Outcome :=
  if inside : address.toNat < 65536 then
    .done (s.advance (s.memory.get ⟨address.toNat, inside⟩ :: rest)) []
  else .failed { s with stack := rest } (.invalidAddress address)

def writeCell (s : State) (address value : Word) (rest : List Word) : Outcome :=
  if inside : address.toNat < 65536 then
    .done ({ s with memory := s.memory.set address.toNat value inside }.advance rest) []
  else .failed { s with stack := rest } (.invalidAddress address)

def load (args : List Word) (s : State) : Outcome :=
  match args with
  | address :: _ => readCell s address s.stack
  | [] => consume .load .address (fun address rest => readCell s address rest) s

def store (args : List Word) (s : State) : Outcome :=
  match s.stack, args with
  | [], _ => .failed s (.underflow .store .value)
  | value :: rest, address :: _ => writeCell s address value rest
  | value :: address :: rest, [] => writeCell s address value rest
  | [_], [] => .failed { s with stack := [] } (.underflow .store .address)

def branch (opcode : Opcode) (taken : Word → Bool) (args : List Word) (s : State) : Outcome :=
  match args, s.stack with
  | [], _ => .failed s (.lacks opcode .target)
  | _ :: _, [] => .failed s (.underflow opcode .one)
  | target :: _, a :: rest =>
    .done { s with stack := rest, counter := if taken a then target else s.counter + 1 } []

def verify (s : State) : Outcome :=
  match s.stack with
  | key :: message :: signature :: rest =>
    let valid := (signature ^^^ message ^^^ key) &&& 1
    let recorded := recordSignature message (valid == 1) s.signatures
    .done ({ s with signatures := recorded }.advance (valid :: rest)) []
  | _ => .failed s (.underflow .verify .signatureMessageAndKey)

def sign (s : State) : Outcome :=
  match s.stack with
  | key :: message :: rest => .done (s.advance ((message ^^^ key) :: rest)) []
  | _ => .failed s (.underflow .sign .messageAndKey)

def step (ambient : Ambient) (command : Command) (s : State) : Outcome :=
  let args := command.args
  let opcode := command.opcode
  match opcode with
  | .add => binary opcode (fun a b => a + b) s
  | .sub => binary opcode (fun a b => a - b) s
  | .mul => binary opcode (fun a b => a * b) s
  | .div => divide opcode .divisionByZero BitVec.udiv s
  | .mod => divide opcode .moduloByZero BitVec.umod s
  | .and => binary opcode (fun a b => a &&& b) s
  | .or => binary opcode (fun a b => a ||| b) s
  | .xor => binary opcode (fun a b => a ^^^ b) s
  | .not => consume opcode .one (fun a rest => .done (s.advance (~~~a :: rest)) []) s
  | .shl => binary opcode (fun a count => a <<< (count.toNat % 32)) s
  | .shr => binary opcode (fun a count => a >>> (count.toNat % 32)) s
  | .eq => binary opcode (fun a b => flag (a == b)) s
  | .neq => binary opcode (fun a b => flag (a != b)) s
  | .lt => binary opcode (fun a b => flag (a.ult b)) s
  | .gt => binary opcode (fun a b => flag (b.ult a)) s
  | .lte => binary opcode (fun a b => flag (a.ule b)) s
  | .gte => binary opcode (fun a b => flag (b.ule a)) s
  | .load | .mload => load args s
  | .store | .mstore => store args s
  | .push =>
    match args with
    | value :: _ => .done (s.advance (value :: s.stack)) []
    | [] => .failed s (.lacks .push .immediate)
  | .pop => consume opcode .one (fun _ rest => .done (s.advance rest) []) s
  | .dup => consume opcode .one (fun a rest => .done (s.advance (a :: a :: rest)) []) s
  | .swap =>
    match s.stack with
    | a :: b :: rest => .done (s.advance (b :: a :: rest)) []
    | _ => .failed s (.underflow .swap .two)
  | .jmp =>
    match args with
    | target :: _ => .done { s with counter := target } []
    | [] => .failed s (.lacks .jmp .target)
  | .jz => branch opcode (· == 0) args s
  | .jnz => branch opcode (· != 0) args s
  | .call =>
    match args with
    | target :: _ => .done { s with stack := (s.counter + 1) :: s.stack, counter := target } []
    | [] => .failed s (.lacks .call .target)
  | .ret =>
    consume opcode .returnAddress (fun a rest => .done { s with stack := rest, counter := a } []) s
  | .hash =>
    consume opcode .one (fun a rest => .done ({ s with lastHash := some a }.advance (a :: rest)) [])
      s
  | .verify => verify s
  | .sign => sign s
  | .halt => .done { s with halted := true } []
  | .nop => .done (s.advance s.stack) []
  | .debug =>
    match s.stack with
    | top :: _ => .done (s.advance s.stack) [s!"DEBUG: cycle={s.cycles}, stack_top={top.toNat}"]
    | [] => .done (s.advance s.stack) []
  | .assert =>
    consume opcode .one (fun a rest =>
      if a = 0 then .failed { s with stack := rest } .assertionFailed
      else .done (s.advance rest) []) s
  | .log => consume opcode .one (fun a rest => .done (s.advance rest) [s!"LOG: {a.toNat}"]) s
  | .read =>
    match s.inputs with
    | value :: later => .done ({ s with inputs := later }.advance (value :: s.stack)) []
    | [] => .done (s.advance (0 :: s.stack)) []
  | .write =>
    consume opcode .one
      (fun a rest => .done ({ s with outputs := s.outputs ++ [a] }.advance rest) []) s
  | .send => consume opcode .one (fun a rest => .done (s.advance rest) [s!"SEND: {a.toNat}"]) s
  | .recv => .done (s.advance (42 :: s.stack)) []
  | .time => .done (s.advance (BitVec.ofInt 32 (ambient.time s.cycles) :: s.stack)) []
  | .rand => .done (s.advance (BitVec.ofInt 32 (ambient.random s.cycles) :: s.stack)) []
  | .id => .done (s.advance (BitVec.ofInt 32 (ambient.identifier s.cycles) :: s.stack)) []

inductive Stop where
  | halted
  | limit
  | ended
  | failed (fault : Fault)

/-- One round of the loop: the state it leaves and, where the run does not go on, why. -/
def turn (ambient : Ambient) (s : State) : State × Option Stop :=
  if s.halted then (s, some .halted)
  else
    match s.program[s.counter.toNat]? with
    | none => (s, some .ended)
    | some command =>
      match step ambient command s with
      | .failed left fault => (left, some (.failed fault))
      | .done next _ => ({ next with cycles := next.cycles + 1 }, none)

def turns (ambient : Ambient) : Nat → State → Option State
  | 0, s => some s
  | count + 1, s =>
    match turn ambient s with
    | (next, none) => turns ambient count next
    | (_, some _) => none

def runFor (ambient : Ambient) : Nat → State → State × Stop
  | 0, s => (s, if s.halted then .halted else .limit)
  | budget + 1, s =>
    match turn ambient s with
    | (left, some stop) => (left, stop)
    | (next, none) => runFor ambient budget next

def run (ambient : Ambient) (limit : Int) (s : State) : State × Stop :=
  runFor ambient (limit - s.cycles).toNat s

end Zkvm.WordMachine
