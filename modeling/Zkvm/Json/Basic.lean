import Zkvm.Text.Decimal

/-!
# Structured data

A tree of numbers, texts, lists and records whose fields keep the order in which they were first put
in. It is written either on one line or with one item on each line; both forms use ASCII only.
-/
set_option autoImplicit false

namespace Zkvm

inductive Json where
  | null
  | bool (value : Bool)
  | int (value : Int)
  | float (value : Float)
  | str (value : String)
  | arr (items : List Json)
  | obj (fields : List (String × Json))

namespace Json

instance : Inhabited Json := ⟨.null⟩

/-- Sets a field: a new one goes to the end, an old one keeps its place. -/
def put {α : Type} (key : String) (value : α) : List (String × α) → List (String × α)
  | [] => [(key, value)]
  | (k, v) :: rest => if k = key then (key, value) :: rest else (k, v) :: put key value rest

def get? (key : String) : Json → Option Json
  | .obj fields => fields.lookup key
  | _ => none

def texts (items : List String) : Json :=
  .arr (items.map .str)

def fourHex (code : Nat) : String :=
  Text.padZeros 4 (String.ofList (Nat.toDigits 16 code))

/-- Half of a character beyond `2 ^ 16` that stands alone is kept as a character for private use, at
this distance from the number of the half. -/
def loneHalfShift : Nat := 0xec800

/-- The number of the half that a character stands for, if it stands for one. -/
def loneHalf? (c : Char) : Option Nat :=
  if 0xd800 + loneHalfShift ≤ c.toNat ∧ c.toNat ≤ 0xdfff + loneHalfShift then
    some (c.toNat - loneHalfShift)
  else
    none

/-- A character outside printable ASCII is written by its number; beyond `2 ^ 16` by two halves. -/
def escapeChar (c : Char) : String :=
  if c = '"' then "\\\""
  else if c = '\\' then "\\\\"
  else if c = '\n' then "\\n"
  else if c = '\r' then "\\r"
  else if c = '\t' then "\\t"
  else if c.toNat = 8 then "\\b"
  else if c.toNat = 12 then "\\f"
  else if 32 ≤ c.toNat && c.toNat < 127 then String.singleton c
  else if c.toNat < 0x10000 then "\\u" ++ fourHex c.toNat
  else
    match loneHalf? c with
    | some half => "\\u" ++ fourHex half
    | none =>
      let above := c.toNat - 0x10000
      "\\u" ++ fourHex (0xd800 + above / 0x400) ++ "\\u" ++ fourHex (0xdc00 + above % 0x400)

def quote (text : String) : String :=
  text.foldl (fun out c => out ++ escapeChar c) "\"" ++ "\""

/-- Positional from `1e-4` up to `1e16`, exponents of at least two digits. -/
def numberStyle : Text.NumberStyle := ⟨-4, 15, 2, "NaN", "Infinity"⟩

/-- What stands between the parts of a list: after the opening bracket and before the closing one,
and between two items. -/
structure Layout where
  opening : Nat → String
  between : Nat → String
  closing : Nat → String

namespace Layout

def line : Layout := ⟨fun _ => "", fun _ => ", ", fun _ => ""⟩

def newline (width depth : Nat) : String :=
  "\n" ++ String.ofList (List.replicate (width * depth) ' ')

def indented (width : Nat) : Layout :=
  ⟨fun depth => newline width (depth + 1), fun depth => "," ++ newline width (depth + 1),
    fun depth => newline width depth⟩

end Layout

mutual

/-- Adds the text of a value at a depth of nesting to what is written so far. -/
def write (layout : Layout) (depth : Nat) (out : String) : Json → String
  | .null => out ++ "null"
  | .bool true => out ++ "true"
  | .bool false => out ++ "false"
  | .int value => out ++ toString value
  | .float value => out ++ Text.shortest numberStyle value
  | .str value => out ++ quote value
  | .arr [] => out ++ "[]"
  | .arr (first :: rest) =>
    let opened := write layout (depth + 1) (out ++ "[" ++ layout.opening depth) first
    writeItems layout depth opened rest ++ layout.closing depth ++ "]"
  | .obj [] => out ++ "\x7b\x7d"
  | .obj (first :: rest) =>
    let opened := writeField layout depth (out ++ "\x7b" ++ layout.opening depth) first
    writeFields layout depth opened rest ++ layout.closing depth ++ "\x7d"

def writeItems (layout : Layout) (depth : Nat) (out : String) : List Json → String
  | [] => out
  | item :: rest =>
    writeItems layout depth (write layout (depth + 1) (out ++ layout.between depth) item) rest

def writeField (layout : Layout) (depth : Nat) (out : String) : String × Json → String
  | (key, value) => write layout (depth + 1) (out ++ quote key ++ ": ") value

def writeFields (layout : Layout) (depth : Nat) (out : String) : List (String × Json) → String
  | [] => out
  | field :: rest =>
    writeFields layout depth (writeField layout depth (out ++ layout.between depth) field) rest

end

def compact (value : Json) : String :=
  value.write .line 0 ""

def pretty (value : Json) : String :=
  value.write (.indented 2) 0 ""

end Json

end Zkvm
