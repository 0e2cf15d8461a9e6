import Zkvm.Component.Basic

/-!
# Components of hashing and signatures
-/
set_option autoImplicit false

namespace Zkvm.Component

open Formula
open Term (wire joined)

/-- Mixes four message bits with the state that comes in: sums, a rotation by one place, and one
connective for each bit. -/
def hashNibble (n : Int) : Component :=
  let state := if n = 0 then "h" else "hin"
  let indices : List Int := [0, 1, 2, 3]
  ofClauses s!"hash_nibble_{n}"
    (samples "m" n (n * 2) ++ indices.map (fun i => .fixWire state i false) ++
      indices.map (fun i => .wire "t" i (.group (wire "m" (n * 4 + i) ^^^ wire state i))) ++ [
        .define "r0" (.var "t3"), .define "r1" (.var "t0"), .define "r2" (.var "t1"),
        .define "r3" (.var "t2"), .define "hout0" (.group (.var "r0" &&& .var "t1")),
        .define "hout1" (.group (.var "r1" ||| .var "t2")),
        .define "hout2" (.group (.var "r2" ^^^ .var "t3")),
        .define "hout3" (.group (.var "r3" &&& .var "t0"))])
    (some (if 0 < n then indices.map (fun i => eitherValue s!"hin{i}") else []))
    (some (indices.map fun i => s!"hout{i}"))

def verifyNibble (n : Int) : Component :=
  let checked := (places n).map fun bit =>
    Clause.wire "v" bit (.group (.group (wire "sig" bit ^^^ wire "pk" bit) &&& wire "msg" bit))
  ofClauses s!"verify_nibble_{n}"
    (samples "msg" n n ++ samples "sig" n (n + 1) ++ samples "pk" n 2 ++ checked ++
      [.wire "verify_ok" n (.group (joined .and ((places n).map (wire "v"))))])
    none (some [s!"verify_ok{n}"])

def signNibble (n : Int) : Component :=
  let mixed := (places n).flatMap fun bit =>
    [Clause.wire "h" bit (.group (wire "msg" bit &&& wire "sk" bit)),
      .wire "s" bit (.group (wire "k" bit ^^^ .group (wire "h" bit &&& wire "sk" bit)))]
  ofClauses s!"sign_nibble_{n}"
    (samples "msg" n (n * 3) ++ samples "sk" n 1 ++ samples "k" n n ++ mixed ++
      (places n).map fun bit => .wire "sig" bit (wire "s" bit))
    none (some ((places n).map fun bit => s!"sig{bit}"))

def hashLink (source target : Int) : Component :=
  linkFour s!"hash_link_{source}_to_{target}" "hin" "hout"

def verifyAggregator : Component := completion "verify_aggregator" "all_verified" "verify_complete"

end Zkvm.Component
