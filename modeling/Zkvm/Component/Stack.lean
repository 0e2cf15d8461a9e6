import Zkvm.Component.Basic

/-!
# Components of memory and stack

Loads and stores fix sample addresses and data.  A push adds one to the stack pointer and a pop
takes one away, nibble by nibble; `duplicate` and `exchange` are shown at one sample bit.
-/
set_option autoImplicit false

namespace Zkvm.Component

open Formula
open Term (wire joined)

def addrNibble (n : Int) : Component :=
  guaranteeing s!"addr_nibble_{n}" [.fixWire "a" n (odd n), .wire "addr" n (wire "a" n)]
    [s!"addr{n}"]

def dataNibble (n : Int) : Component :=
  guaranteeing s!"data_nibble_{n}" [.fixWire "d" n (odd (n + 1)), .wire "data" n (wire "d" n)]
    [s!"data{n}"]

def zeros (name : String) (nibble : Int) : List Clause :=
  (places nibble).map fun bit => .fixWire name bit false

def mloadNibble (n : Int) : Component :=
  ofClauses s!"mload_nibble_{n}"
    (samples "maddr" n n ++ [.fix "mem_space" true] ++ zeros "mdata" n ++
      [.fixWire "mem_op" n true])

def mstoreNibble (n : Int) : Component :=
  ofClauses s!"mstore_nibble_{n}"
    (samples "maddr" n n ++ [.fix "mem_space" true] ++ samples "mdata" n (n + 1) ++
      [.fixWire "mem_write" n true])

/-- The first `count` bits of the pointer in a nibble, all of them together. -/
def pointerAll (offset : Int) (count : Nat) : Term :=
  joined .and ((List.range count).map fun (i : Nat) => wire "sp" (offset + i))

def pushLowest (n : Int) : List Clause := [
  .define "sp_inc0" (.group (.var "sp0" ^^^ .bit true)),
  .define "sp_inc1" (.group (.var "sp1" ^^^ .group (.group (.var "sp0" &&& .bit true)))),
  .define "sp_inc2" (.group (.var "sp2" ^^^ .group (.group (pointerAll 0 2) &&& .bit true))),
  .define "sp_inc3" (.group (.var "sp3" ^^^ .group (.group (pointerAll 0 3) &&& .bit true))),
  .wire "carry_out" n (.group (.group (pointerAll 0 4) &&& .bit true))]

def pushHigher (n : Int) : List Clause :=
  let offset := n * 4
  .wire "sp_inc" offset (.group (wire "sp" offset ^^^ .var "carry_in")) ::
    (List.range 3).map fun (i : Nat) =>
      .wire "sp_inc" (offset + i + 1)
        (.group (wire "sp" (offset + i + 1) ^^^ .group
          (.group (pointerAll offset (i + 1)) &&& .var "carry_in")))

def pushNibble (n : Int) : Component :=
  ofClauses s!"push_nibble_{n}"
    (samples "sp" n (n * 2) ++ samples "push_data" n n ++ [.fix "stack_op" true] ++
      (if n = 0 then pushLowest n else .fix "carry_in" false :: pushHigher n))
    none (some (if n = 0 then ["stack_op=1"] else []))

/-- A borrow that goes on where the bit is zero. -/
def borrowOn (before bit : Term) : Term :=
  .group (before &&& bit.flipped)

def popLowest (n : Int) : List Clause :=
  let sp (i : Int) := wire "sp" i
  let borrow (i : Int) := wire "borrow" i
  [.wire "sp_dec" 0 (sp 0).flipped, .wire "borrow" 0 (sp 0).flipped,
    .wire "sp_dec" 1 (.group (sp 1 ^^^ borrow 0)), .wire "borrow" 1 (borrowOn (borrow 0) (sp 1)),
    .wire "sp_dec" 2 (.group (sp 2 ^^^ borrow 1)), .wire "borrow" 2 (borrowOn (borrow 1) (sp 2)),
    .wire "sp_dec" 3 (.group (sp 3 ^^^ borrow 2)),
    .wire "borrow_out" n (borrowOn (borrow 2) (sp 3))]

def popHigher (n : Int) : List Clause :=
  let offset := n * 4
  let lowest := wire "sp" offset
  [.wire "sp_dec" offset (.group (lowest ^^^ .var "borrow_in")),
    .wire "borrow" 0 (borrowOn (.var "borrow_in") lowest)] ++
    (List.range 3).flatMap fun (i : Nat) =>
      let bit := wire "sp" (offset + i + 1)
      [.wire "sp_dec" (offset + i + 1) (.group (bit ^^^ wire "borrow" i)),
        .wire "borrow" (i + 1) (borrowOn (wire "borrow" i) bit)]

def popNibble (n : Int) : Component :=
  ofClauses s!"pop_nibble_{n}"
    (samples "sp" n (n * 2 + 1) ++ (if n = 0 then popLowest n
      else .fix "borrow_in" false :: popHigher n) ++
      zeros "pop_data" n ++ [.fix "stack_op" true])
    none (some (if n = 0 then ["stack_op=1"] else []))

def pushLink (source target : Int) : Component :=
  link s!"push_carry_{source}_to_{target}" "carry_in" s!"carry_out{source}"

def popLink (source target : Int) : Component :=
  link s!"pop_borrow_{source}_to_{target}" "borrow_in" s!"borrow_out{source}"

def dupNibble (n : Int) : Component :=
  guaranteeing s!"dup_nibble_{n}" [.fixWire "top" n true, .wire "dup" n (wire "top" n)] [s!"dup{n}"]

def swapNibble (n : Int) : Component :=
  guaranteeing s!"swap_nibble_{n}"
    [.fixWire "a" n true, .fixWire "b" n false, .wire "swapa" n (wire "b" n),
      .wire "swapb" n (wire "a" n)]
    [s!"swapa{n}", s!"swapb{n}"]

def dupAggregator : Component := completion "dup_aggregator" "allok" "dupcomplete"

def swapAggregator : Component := completion "swap_aggregator" "allswapped" "swapcomplete"

end Zkvm.Component
