import Zkvm.Component.System
import Zkvm.Json.Fields

/-!
# Components by name, and their records
-/
set_option autoImplicit false

namespace Zkvm.Component

/-- What a nibble of an operation is made by, by the name of the operation in small letters. -/
def nibble? : String → Option (Int → Component)
  | "add" => some addNibble
  | "sub" => some subNibble
  | "mul" => some mulPartial
  | "div" => some divNibble
  | "mod" => some modNibble
  | "and" => some andNibble
  | "or" => some orNibble
  | "xor" => some xorNibble
  | "not" => some notNibble
  | "shl" => some shlNibble
  | "shr" => some shrNibble
  | "eq" => some eqNibble
  | "neq" => some neqNibble
  | "lt" => some ltNibble
  | "gt" => some gtNibble
  | "lte" => some lteNibble
  | "gte" => some gteNibble
  | "addr" => some addrNibble
  | "data" => some dataNibble
  | "mload" => some mloadNibble
  | "mstore" => some mstoreNibble
  | "push" => some pushNibble
  | "pop" => some popNibble
  | "dup" => some dupNibble
  | "swap" => some swapNibble
  | "hash" => some hashNibble
  | "verify" => some verifyNibble
  | "sign" => some signNibble
  | "jmp" => some jmpNibble
  | "jz" => some jzNibble
  | "jnz" => some jnzNibble
  | "call" => some callNibble
  | "ret" => some retNibble
  | _ => none

def link? : String → Option (Int → Int → Component)
  | "carry" => some carryLink
  | "shl_carry" => some shlCarryLink
  | "shr_carry" => some shrCarryLink
  | "pc_carry" => some counterLink
  | _ => none

def aggregator? : String → Option Component
  | "eq" => some eqAggregator
  | "neq" => some neqAggregator
  | "lt" => some ltAggregator
  | "gt" => some gtAggregator
  | "lte" => some lteAggregator
  | "gte" => some gteAggregator
  | _ => none

def ofJson (record : Json) : Component where
  name := (record.field "name").toText
  constraints := (record.field "constraints").toTexts
  assumptions := (record.field "assumptions").toTexts?
  guarantees := (record.field "guarantees").toTexts?

def fields (c : Component) : List (String × Json) := [
  ("name", .str c.name), ("constraints", .texts c.constraints),
  ("assumptions", .optional Json.texts c.assumptions),
  ("guarantees", .optional Json.texts c.guarantees)]

end Zkvm.Component
