import Zkvm.Machine.Opcode
import Zkvm.Text.Numeral

/-!
# Why a run fails
-/
set_option autoImplicit false

namespace Zkvm.Machine

/-- What an operation did not find on the stack. -/
inductive Shortage where
  | one
  | two
  | address
  | value
  | returnAddress
  | messageAndKey
  | signatureMessageAndKey

/-- What an operation did not find among its arguments. -/
inductive Lack where
  | immediate
  | target

/-- Why a place in a row of cells cannot be used: it lies before the first cell, or its number is
too large in magnitude to be one at all. -/
inductive OffRange where
  | read
  | write
  | number

inductive Fault where
  | underflow (opcode : Opcode) (shortage : Shortage)
  | lacks (opcode : Opcode) (lack : Lack)
  | divisionByZero
  | moduloByZero
  | invalidAddress (address : Int)
  | offRange (cause : OffRange)
  | assertionFailed
  /-- A number that is to be printed has too many digits. -/
  | unwritable

namespace Shortage

def text : Shortage → String
  | .one => "1 stack element"
  | .two => "2 stack elements"
  | .address => "address on stack"
  | .value => "value on stack"
  | .returnAddress => "return address on stack"
  | .messageAndKey => "2 stack elements (message, private_key)"
  | .signatureMessageAndKey => "3 stack elements (signature, message, public_key)"

end Shortage

namespace OffRange

def text : OffRange → String
  | .read => "list index out of range"
  | .write => "list assignment index out of range"
  | .number => "cannot fit 'int' into an index-sized integer"

end OffRange

namespace Fault

def message : Fault → String
  | .underflow opcode shortage => s!"{Text.upper opcode.name} requires {shortage.text}"
  | .lacks opcode .immediate => s!"{Text.upper opcode.name} requires immediate value"
  | .lacks opcode .target => s!"{Text.upper opcode.name} requires target address"
  | .divisionByZero => "Division by zero"
  | .moduloByZero => "Modulo by zero"
  | .invalidAddress address =>
    if Text.Writable address then s!"Invalid memory address: {address}" else Text.tooManyDigits
  | .offRange cause => cause.text
  | .assertionFailed => "Assertion failed"
  | .unwritable => Text.tooManyDigits

end Fault

end Zkvm.Machine
