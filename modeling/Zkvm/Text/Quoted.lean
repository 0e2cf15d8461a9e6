import Zkvm.Json.Basic
import Zkvm.Text.Hidden

/-!
# Quoted text

A text between single quotes, or between double ones if it holds a single quote and no double one.
The quote in use, the backslash and everything that has no shape of its own on paper are escaped.
-/
set_option autoImplicit false

namespace Zkvm.Text

def hex (width code : Nat) : String :=
  padZeros width (String.ofList (Nat.toDigits 16 code))

def quotedChar (mark c : Char) : String :=
  if c = mark ∨ c = '\\' then String.ofList ['\\', c]
  else if c = '\n' then "\\n"
  else if c = '\r' then "\\r"
  else if c = '\t' then "\\t"
  else if isHidden c then
    if c.toNat < 0x100 then "\\x" ++ hex 2 c.toNat
    else if c.toNat < 0x10000 then "\\u" ++ hex 4 c.toNat
    else
      match Json.loneHalf? c with
      | some half => "\\u" ++ hex 4 half
      | none => "\\U" ++ hex 8 c.toNat
  else String.singleton c

def quoted (text : String) : String :=
  let mark := if text.toList.contains '\x27' && !text.toList.contains '"' then '"' else '\x27'
  text.foldl (fun out c => out ++ quotedChar mark c) (String.singleton mark) ++
    String.singleton mark

def quotedList (items : List String) : String :=
  "[" ++ ", ".intercalate (items.map quoted) ++ "]"

end Zkvm.Text
