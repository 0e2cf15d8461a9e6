import Zkvm.Component.Basic

/-!
# Components of control flow

A conditional jump chooses between a target and the counter plus four; a call keeps the counter plus
four and goes to its target.  The sum is made nibble by nibble: four is added in the lowest one, and
the higher ones add the carry that comes in.
-/
set_option autoImplicit false

namespace Zkvm.Component

open Formula
open Term (wire joined)

def names (name : String) (nibble : Int) : List String :=
  (places nibble).map fun bit => s!"{name}{bit}"

/-- The lowest nibble of the counter plus four, in the bits of `result`. -/
def plusFour (result : String) : List Clause := [
  .wire result 0 (.group (.var "pc0" ^^^ .bit false)),
  .wire result 1 (.group (.var "pc1" ^^^ .bit false)),
  .wire result 2 (.group (.var "pc2" ^^^ .bit true)),
  .define "c2" (.var "pc2"),
  .wire result 3 (.group (.var "pc3" ^^^ .var "c2")),
  .define "cout0" (.group (.var "pc3" &&& .var "c2"))]

def plusCarry (result : String) (nibble : Int) : List Clause :=
  let add (bit : Int) (before : Term) :=
    [Clause.wire result bit (.group (wire "pc" bit ^^^ before)),
      .wire "c" bit (.group (wire "pc" bit &&& before))]
  let offset := nibble * 4
  add offset (.var "cin") ++ [1, 2, 3].flatMap
    (fun (i : Int) => add (offset + i) (wire "c" (offset + i - 1))) ++
    if nibble < 7 then [.wire "cout" nibble (wire "c" (offset + 3))] else []

def advance (result : String) (nibble : Int) : List Clause :=
  if nibble = 0 then plusFour result else plusCarry result nibble

def controlCarryIn (nibble : Int) : List Clause :=
  if nibble = 0 then [] else [.fix "cin" false]

def copy (target source : String) (nibble : Int) : List Clause :=
  (places nibble).map fun bit => .wire target bit (wire source bit)

def jmpNibble (n : Int) : Component :=
  ofClauses s!"jmp_nibble_{n}"
    (samples "target" n n ++ samples "pc" n (n + 1) ++ copy "newpc" "target" n)
    none (some (names "newpc" n))

/-- Takes the target where `taken` is true and the next command where `passed` is.  Only in a nibble
above the lowest one do the three higher bits read the sum at their own place; every other bit reads
the sum at its place within the nibble. -/
def select (taken passed : Term) (nibble : Int) : List Clause :=
  (List.range 4).map fun (i : Nat) =>
    let bit := nibble * 4 + i
    let next := wire "s" (if 0 < i ∧ 0 < nibble then bit else i)
    .wire "newpc" bit (.group (.group (taken &&& wire "target" bit) ||| .group (passed &&& next)))

def flag : Term := .var "zflag"

/-- A jump that is taken if the flag has the value `taken`. -/
def branchNibble (operation : String) (taken : Bool) (n : Int) : Component :=
  let chosen := if taken then select flag flag.flipped n else select flag.flipped flag n
  ofClauses s!"{operation}_nibble_{n}"
    ([.fix "zflag" taken] ++ samples "target" n n ++ samples "pc" n (n + 1) ++ controlCarryIn n ++
      advance "s" n ++ chosen)
    (some (eitherValue "zflag" :: if 0 < n then [eitherValue "cin"] else []))
    (some (names "newpc" n ++ if n < 7 then [s!"cout{n}"] else []))

def jzNibble (n : Int) : Component := branchNibble "jz" true n

def jnzNibble (n : Int) : Component := branchNibble "jnz" false n

def callNibble (n : Int) : Component :=
  ofClauses s!"call_nibble_{n}"
    (samples "target" n n ++ samples "pc" n (n + 1) ++ samples "sp" n (n + 2) ++ controlCarryIn n ++
      advance "r" n ++ copy "stack" "r" n ++ copy "newpc" "target" n ++
        [.fixWire "spchanged" n true])
    (some (if 0 < n then [eitherValue "cin"] else []))
    (some (names "newpc" n ++ names "stack" n ++ [s!"spchanged{n}"] ++
      if n < 7 then [s!"cout{n}"] else []))

def retNibble (n : Int) : Component :=
  ofClauses s!"ret_nibble_{n}"
    (samples "sp" n n ++ samples "retaddr" n (n + 3) ++ samples "pc" n (n + 1) ++
      copy "newpc" "retaddr" n ++
      [.fixWire "spchanged" n true])
    none (some (names "newpc" n ++ [s!"spchanged{n}"]))

/-- The flag is set if all bits of all nibbles are zero. -/
def zeroFlagAggregator (count : Int) : Component :=
  let parts := (Formula.places count).flatMap fun (i : Nat) =>
    (Component.places i).map (fun bit => Clause.fixWire "r" bit false) ++
      [.wire "nz" i
        (.group (joined .and ((Component.places i).map fun bit => (wire "r" bit).flipped)))]
  ofClauses "zero_flag_aggregator"
    (parts ++
      [.define "zflag"
        (.group (joined .and ((Formula.places count).map fun (i : Nat) => wire "nz" i)))])
    none (some ["zflag"])

def counterLink (source target : Int) : Component :=
  link s!"pc_carry_{source}_to_{target}" "cin" s!"cout{source}"

/-- The components of an operation of control flow; none for any other name. -/
def controlFlow (instruction : String) : List Component :=
  match instruction with
  | "JMP" => eachNibble jmpNibble
  | "JZ" => zeroFlagAggregator 8 :: eachNibble jzNibble ++ eachPair counterLink
  | "JNZ" => zeroFlagAggregator 8 :: eachNibble jnzNibble ++ eachPair counterLink
  | "CALL" => eachNibble callNibble ++ eachPair counterLink
  | "RET" => eachNibble retNibble
  | _ => []

end Zkvm.Component
