import Zkvm.Machine.State

/-!
# One command

What each operation does to the state.  An operation that fails leaves the counter on itself;
operands it has already taken off the stack stay off.  Sums, differences, products, complements,
left shifts, hashes and signatures are reduced to words; all other results are whatever integer
comes out.
-/
set_option autoImplicit false

namespace Zkvm.Machine

/-- What the machine learns from outside, by the number of the cycle. -/
structure Ambient where
  time : Nat → Int
  random : Nat → Int
  identifier : Nat → Int

inductive Outcome where
  | done (next : State) (said : List String)
  | failed (left : State) (fault : Fault)

def truth (holds : Bool) : Int :=
  if holds then 1 else 0

/-- Takes two operands, the second one from the top, and pushes what `f` makes of them. -/
def binary (opcode : Opcode) (f : Int → Int → Int) (s : State) : Outcome :=
  match s.stack with
  | b :: a :: rest => .done (s.advance (f a b :: rest)) []
  | _ => .failed s (.underflow opcode .two)

def divide (opcode : Opcode) (fault : Fault) (f : Int → Int → Int) (s : State) : Outcome :=
  match s.stack with
  | b :: a :: rest =>
    if b = 0 then .failed { s with stack := rest } fault else .done (s.advance (f a b :: rest)) []
  | _ => .failed s (.underflow opcode .two)

/-- Takes the top of the stack and goes on with the state and the lines that `f` gives. -/
def consume (opcode : Opcode) (shortage : Shortage) (f : Int → List Int → Outcome) (s : State) :
    Outcome :=
  match s.stack with
  | a :: rest => f a rest
  | [] => .failed s (.underflow opcode shortage)

def readCell (s : State) (address : Int) (rest : List Int) : Outcome :=
  match cell .read address with
  | .ok place => .done (s.advance (s.memory.get place :: rest)) []
  | .error fault => .failed { s with stack := rest } fault

def writeCell (s : State) (address value : Int) (rest : List Int) : Outcome :=
  match cell .write address with
  | .ok place =>
    .done ({ s with memory := s.memory.set place.val value place.isLt }.advance rest) []
  | .error fault => .failed { s with stack := rest } fault

/-- The address is the first argument, or else the top of the stack. -/
def load (args : List Int) (s : State) : Outcome :=
  match args with
  | address :: _ => readCell s address s.stack
  | [] => consume .load .address (fun address rest => readCell s address rest) s

/-- The value is the top of the stack; the address is the first argument, or else what lies
below. -/
def store (args : List Int) (s : State) : Outcome :=
  match s.stack, args with
  | [], _ => .failed s (.underflow .store .value)
  | value :: rest, address :: _ => writeCell s address value rest
  | value :: address :: rest, [] => writeCell s address value rest
  | [_], [] => .failed { s with stack := [] } (.underflow .store .address)

/-- Jumps to the first argument if the top of the stack is as `taken` says. -/
def branch (opcode : Opcode) (taken : Int → Bool) (args : List Int) (s : State) : Outcome :=
  match args, s.stack with
  | [], _ => .failed s (.lacks opcode .target)
  | _ :: _, [] => .failed s (.underflow opcode .one)
  | target :: _, a :: rest =>
    .done { s with stack := rest, counter := if taken a then target else s.counter + 1 } []

/-- Takes the top of the stack and prints it after a heading; a number that is too long is taken,
too. -/
def tell (opcode : Opcode) (heading : String) (s : State) : Outcome :=
  consume opcode .one (fun a rest =>
    if Text.Writable a then .done (s.advance rest) [s!"{heading}: {a}"]
    else .failed { s with stack := rest } .unwritable) s

def verify (s : State) : Outcome :=
  match s.stack with
  | key :: message :: signature :: rest =>
    let valid := bitXor (bitXor signature message) key % 2
    let recorded := recordSignature message (valid == 1) s.signatures
    .done ({ s with signatures := recorded }.advance (valid :: rest)) []
  | _ => .failed s (.underflow .verify .signatureMessageAndKey)

def sign (s : State) : Outcome :=
  match s.stack with
  | key :: message :: rest => .done (s.advance (word (bitXor message key) :: rest)) []
  | _ => .failed s (.underflow .sign .messageAndKey)

def step (ambient : Ambient) (command : Command) (s : State) : Outcome :=
  let args := command.args
  let opcode := command.opcode
  match opcode with
  | .add => binary opcode (fun a b => word (a + b)) s
  | .sub => binary opcode (fun a b => word (a - b)) s
  | .mul => binary opcode (fun a b => word (a * b)) s
  | .div => divide opcode .divisionByZero Int.fdiv s
  | .mod => divide opcode .moduloByZero Int.fmod s
  | .and => binary opcode bitAnd s
  | .or => binary opcode bitOr s
  | .xor => binary opcode bitXor s
  | .not => consume opcode .one (fun a rest => .done (s.advance (word (-a - 1) :: rest)) []) s
  | .shl => binary opcode shiftLeft s
  | .shr => binary opcode shiftRight s
  | .eq => binary opcode (fun a b => truth (decide (a = b))) s
  | .neq => binary opcode (fun a b => truth (!decide (a = b))) s
  | .lt => binary opcode (fun a b => truth (decide (a < b))) s
  | .gt => binary opcode (fun a b => truth (decide (b < a))) s
  | .lte => binary opcode (fun a b => truth (decide (a ≤ b))) s
  | .gte => binary opcode (fun a b => truth (decide (b ≤ a))) s
  | .load | .mload => load args s
  | .store | .mstore => store args s
  | .push =>
    match args with
    | value :: _ => .done (s.advance (value :: s.stack)) []
    | [] => .failed s (.lacks .push .immediate)
  | .pop => consume opcode .one (fun _ rest => .done (s.advance rest) []) s
  | .dup => consume opcode .one (fun a rest => .done (s.advance (a :: a :: rest)) []) s
  | .swap =>
    match s.stack with
    | a :: b :: rest => .done (s.advance (b :: a :: rest)) []
    | _ => .failed s (.underflow .swap .two)
  | .jmp =>
    match args with
    | target :: _ => .done { s with counter := target } []
    | [] => .failed s (.lacks .jmp .target)
  | .jz => branch opcode (fun a => decide (a = 0)) args s
  | .jnz => branch opcode (fun a => !decide (a = 0)) args s
  | .call =>
    match args with
    | target :: _ => .done { s with stack := (s.counter + 1) :: s.stack, counter := target } []
    | [] => .failed s (.lacks .call .target)
  | .ret =>
    consume opcode .returnAddress (fun a rest => .done { s with stack := rest, counter := a } []) s
  | .hash =>
    consume opcode .one (fun a rest =>
      let hashed := word (residue a)
      .done ({ s with lastHash := some hashed }.advance (hashed :: rest)) []) s
  | .verify => verify s
  | .sign => sign s
  | .halt => .done { s with halted := true } []
  | .nop => .done (s.advance s.stack) []
  | .debug =>
    match s.stack with
    | top :: _ =>
      if Text.Writable top then .done (s.advance s.stack)
        [s!"DEBUG: cycle={s.cycles}, stack_top={top}"]
      else .failed s .unwritable
    | [] => .done (s.advance s.stack) []
  | .assert =>
    consume opcode .one (fun a rest =>
      if a = 0 then .failed { s with stack := rest } .assertionFailed
      else .done (s.advance rest) []) s
  | .log => tell opcode "LOG" s
  | .read =>
    match s.inputs with
    | value :: later => .done ({ s with inputs := later }.advance (value :: s.stack)) []
    | [] => .done (s.advance (0 :: s.stack)) []
  | .write =>
    consume opcode .one
      (fun a rest => .done ({ s with outputs := s.outputs ++ [a] }.advance rest) []) s
  | .send => tell opcode "SEND" s
  | .recv => .done (s.advance (42 :: s.stack)) []
  | .time => .done (s.advance (word (ambient.time s.cycles) :: s.stack)) []
  | .rand => .done (s.advance (word (ambient.random s.cycles) :: s.stack)) []
  | .id => .done (s.advance (word (ambient.identifier s.cycles) :: s.stack)) []

end Zkvm.Machine
