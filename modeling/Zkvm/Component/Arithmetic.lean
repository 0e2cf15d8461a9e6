import Zkvm.Component.Basic

/-!
# Components of arithmetic

Addition is a chain of four full adders for each nibble, linked by carries.  The other operations
are shown at one pair of sample bits.
-/
set_option autoImplicit false

namespace Zkvm.Component

open Term (wire sum carry)

def laterAdders (nibble : Int) : List Clause :=
  (List.range 3).flatMap fun (i : Nat) =>
    let bit := nibble * 4 + i + 1
    let before := wire "c" (bit - 1)
    [.wire "s" bit (sum (wire "a" bit) (wire "b" bit) before),
      .wire "c" bit (carry (wire "a" bit) (wire "b" bit) before)]

/-- The adder of the lowest bit of a nibble: nibble zero has no carry in. -/
def firstAdder (nibble : Int) : List Clause :=
  let offset := nibble * 4
  let a := wire "a" offset
  let b := wire "b" offset
  if nibble = 0 then [.wire "s" offset (.group (a ^^^ b)), .wire "c" offset (.group (a &&& b))]
  else [.wire "s" offset (sum a b (.var "cin")), .wire "c" offset (carry a b (.var "cin"))]

/-- A carry comes in everywhere but in nibble zero. -/
def carryIn (nibble : Int) : List Clause :=
  if nibble = 0 then [] else [.fix "cin" false]

def addNibble (nibble : Int) : Component :=
  let handed : List Clause :=
    if nibble < 7 then [.wire "cout" nibble (wire "c" (nibble * 4 + 3))] else []
  ofClauses s!"add_nibble_{nibble}"
    (operandSamples nibble (nibble * 4) ++ carryIn nibble ++ firstAdder nibble ++
      laterAdders nibble ++ handed)
    (some (if 0 < nibble then [eitherValue "cin"] else []))
    (some (handed.map Clause.text))

def subNibble (n : Int) : Component :=
  guaranteeing s!"sub_nibble_{n}"
    [.fixWire "a" n true, .fixWire "b" n false,
      .wire "diff" n (.group (wire "a" n &&& (wire "b" n).flipped))]
    [s!"diff{n}"]

def product (n i j : Int) : String :=
  s!"p{n}_{i}_{j}"

def partialProducts (n : Int) : List Clause :=
  (List.range 4).flatMap fun (i : Nat) =>
    (List.range (4 - i)).map fun (j : Nat) =>
      .define (product n i j) (.group (wire "a" (n * 4 + i) &&& wire "b" j))

/-- The partial products of a nibble and the sums of their four lowest columns. -/
def mulPartial (n : Int) : Component :=
  let term (i j : Int) : Term := .var (product n i j)
  ofClauses s!"mul_partial_{n}" (partialProducts n ++ [
    .define s!"pp{n}_0" (term 0 0),
    .define s!"pp{n}_1" (.group (term 1 0 ^^^ term 0 1)),
    .define s!"pp{n}_2" (.group (term 2 0 ^^^ term 1 1 ^^^ term 0 2)),
    .define s!"pp{n}_3" (.group (term 3 0 ^^^ term 2 1 ^^^ term 1 2 ^^^ term 0 3))])

def divNibble (n : Int) : Component :=
  guaranteeing s!"div_nibble_{n}"
    [.fixWire "a" n true, .fixWire "b" n true, .wire "q" n (.group (wire "a" n &&& wire "b" n)),
      .fixWire "r" n false]
    [s!"q{n}", s!"r{n}"]

def modNibble (n : Int) : Component :=
  guaranteeing s!"mod_nibble_{n}"
    [.fixWire "a" n true, .fixWire "b" n true,
      .wire "rem" n (.group (wire "a" n &&& (wire "b" n).flipped))]
    [s!"rem{n}"]

def carryLink (source target : Int) : Component :=
  link s!"carry_{source}_to_{target}" "cin" s!"cout{source}"

def remainderLink (operation : String) (source target : Int) : Component :=
  linkFour s!"{operation}_rem_link_{source}_to_{target}" "rin" "rout"

end Zkvm.Component
