import Zkvm.Contract.Instruction.Control

/-!
# Contracts of hashing and signing
-/
set_option autoImplicit false

namespace Zkvm.Contract.Instruction

open Term (wire)

/-- Two rounds that mix sixteen bits into eight. -/
def hashPart : Part Place :=
  single "HASH" <| ofClauses "hash_rc" ["ok=1"] ["hashed"]
    (((List.range 16).map fun (i : Nat) => .fixWire "d" i false) ++
      ((List.range 8).map fun (i : Nat) =>
        .wire "x" i (.group (wire "d" i ^^^ wire "d" ((i + 3) % 8 + 8 : Nat)))) ++
      ((List.range 8).map fun (i : Nat) =>
        .wire "y" i (.group (wire "x" i ^^^ wire "x" ((i + 5) % 8 : Nat)))) ++
      byteCopy "h" "y")

/-- A bit of the signature fits the bits of the key and of the message. -/
def matchingBit (i : Nat) : Term :=
  let signature := wire "s" i
  let key := wire "k" i
  let message := wire "m" i
  .group (.group (signature ^^^ key ^^^ message ^^^ .bit true) |||
    .group (.flipped (.group (signature ^^^ key)) ^^^ message ^^^ .bit true))

def verifyPart : Part Place :=
  single "VERIFY" <| ofClauses "verify_sig" ["valid=1"] ["verified"]
    (byteInputs ["k", "s", "m"] ++
      ((List.range 8).map fun (i : Nat) => .wire "v" i (matchingBit i)) ++
      [.define "ok" (.group (.joined .and ((List.range 8).map fun (i : Nat) => wire "v" i)))])

def signPart : Part Place :=
  single "SIGN" <| ofClauses "sign" ["valid=1"] ["signed"]
    (byteInputs ["p", "m"] ++
      ((List.range 8).map fun (i : Nat) => .wire "s" i (.group (wire "p" i ^^^ wire "m" i))) ++
      [.fix "ok" true])

def crypto (operation : String) : Plan Place :=
  match Text.upper operation with
  | "HASH" => [("hash_rc", hashPart)]
  | "VERIFY" => [("verify_sig", verifyPart)]
  | "SIGN" => [("sign", signPart)]
  | _ => []

end Zkvm.Contract.Instruction
