import Zkvm.Json.Basic

/-!
# Reading structured data

The reader takes the text apart from left to right.  What is refused is refused at a place, which
the message gives as a line, a column and a count of characters.  Every call consumes at least one
character, so that the length of the text bounds the nesting.
-/
set_option autoImplicit false

namespace Zkvm.Json

inductive Complaint where
  | value
  | fieldName
  | colon
  | comma
  | unterminated
  | controlCharacter
  | escape
  | unicodeEscape
  | extraData
  | byteOrderMark

namespace Complaint

def text : Complaint → String
  | .value => "Expecting value"
  | .fieldName => "Expecting property name enclosed in double quotes"
  | .colon => "Expecting ':' delimiter"
  | .comma => "Expecting ',' delimiter"
  | .unterminated => "Unterminated string starting at"
  | .controlCharacter => "Invalid control character at"
  | .escape => "Invalid \\escape"
  | .unicodeEscape => "Invalid \\uXXXX escape"
  | .extraData => "Extra data"
  | .byteOrderMark => "Unexpected UTF-8 BOM (decode using utf-8-sig)"

end Complaint

/-- Why a text was refused, and what was still to be read there. -/
structure Refusal where
  complaint : Complaint
  rest : List Char

namespace Refusal

def message (refusal : Refusal) (source : List Char) : String :=
  let before := source.take (source.length - refusal.rest.length)
  let line := before.count '\n' + 1
  let column := (before.reverse.takeWhile (· != '\n')).length + 1
  s!"{refusal.complaint.text}: line {line} column {column} (char {before.length})"

end Refusal

def isBlank (c : Char) : Bool :=
  c = ' ' || c = '\t' || c = '\n' || c = '\r'

def skipBlanks (source : List Char) : List Char :=
  source.dropWhile isBlank

def hexDigit? (c : Char) : Option Nat :=
  if '0' ≤ c ∧ c ≤ '9' then some (c.toNat - '0'.toNat)
  else if 'a' ≤ c ∧ c ≤ 'f' then some (c.toNat - 'a'.toNat + 10)
  else if 'A' ≤ c ∧ c ≤ 'F' then some (c.toNat - 'A'.toNat + 10)
  else none

def fourHex? : List Char → Option (Nat × List Char)
  | a :: b :: c :: d :: rest =>
    if rest.isEmpty then none
    else do
      let w ← hexDigit? a
      let x ← hexDigit? b
      let y ← hexDigit? c
      let z ← hexDigit? d
      pure (((w * 16 + x) * 16 + y) * 16 + z, rest)
  | _ => none

/-- The second half of a character beyond `2 ^ 16`, if it stands here. -/
def lowHalf? : List Char → Option (Nat × List Char)
  | '\\' :: 'u' :: rest =>
    match fourHex? rest with
    | some (code, after) => if 0xdc00 ≤ code ∧ code ≤ 0xdfff then some (code, after) else none
    | none => none
  | _ => none

/-- The character that a number after `\u` gives, joined with its second half where there is one. -/
def unicodeChar (code : Nat) (rest : List Char) : Char × List Char :=
  if 0xd800 ≤ code ∧ code ≤ 0xdbff then
    match lowHalf? rest with
    | some (low, after) => (Char.ofNat (0x10000 + (code - 0xd800) * 0x400 + (low - 0xdc00)), after)
    | none => (Char.ofNat (code + loneHalfShift), rest)
  else if 0xdc00 ≤ code ∧ code ≤ 0xdfff then (Char.ofNat (code + loneHalfShift), rest)
  else (Char.ofNat code, rest)

/-- The rest of a quoted text, after its opening quote; `start` is what was left at that quote. -/
def readString (start : List Char) :
    Nat → List Char → List Char → Except Refusal (String × List Char)
  | 0, _, _ => .error ⟨.unterminated, start⟩
  | _ + 1, _, [] => .error ⟨.unterminated, start⟩
  | fuel + 1, taken, c :: rest =>
    if c = '"' then .ok (String.ofList taken.reverse, rest)
    else if c = '\\' then
      match rest with
      | [] => .error ⟨.unterminated, start⟩
      | 'u' :: digits =>
        match fourHex? digits with
        | none => .error ⟨.unicodeEscape, rest⟩
        | some (code, after) =>
          let (char, left) := unicodeChar code after
          readString start fuel (char :: taken) left
      | e :: after =>
        match [('"', '"'), ('\\', '\\'), ('/', '/'), ('b', Char.ofNat 8), ('f', Char.ofNat 12),
            ('n', '\n'), ('r', '\r'), ('t', '\t')].lookup e with
        | some char => readString start fuel (char :: taken) after
        | none => .error ⟨.escape, c :: rest⟩
    else if c.toNat < 32 then .error ⟨.controlCharacter, c :: rest⟩
    else readString start fuel (c :: taken) rest

def naturalOf (digits : List Char) : Nat :=
  digits.foldl (fun n c => n * 10 + (c.toNat - '0'.toNat)) 0

/-- The double nearest to `digits * 10 ^ exponent`; far outside the range of doubles it is zero or
infinite without a computation. -/
def floatOf (digits : Nat) (exponent : Int) : Float :=
  let size : Int := (toString digits).length + exponent
  if digits = 0 then 0
  else if size > 400 then 1.0 / 0.0
  else if size < -400 then 0
  else if exponent < 0 then Float.ofScientific digits true exponent.natAbs
  else Float.ofScientific digits false exponent.natAbs

def readMagnitude (negative : Bool) (source : List Char) : Json × List Char :=
  let whole := if source.head? = some '0' then ['0'] else source.takeWhile Char.isDigit
  let afterWhole := source.drop whole.length
  let fraction :=
    match afterWhole with
    | '.' :: rest => rest.takeWhile Char.isDigit
    | _ => []
  let afterFraction :=
    if fraction.isEmpty then afterWhole else afterWhole.drop (fraction.length + 1)
  let (power, afterPower) : Option Int × List Char :=
    match afterFraction with
    | mark :: rest =>
      if mark = 'e' ∨ mark = 'E' then
        let (sign, digits) : Int × List Char :=
          match rest with
          | '-' :: d => (-1, d)
          | '+' :: d => (1, d)
          | d => (1, d)
        let shown := digits.takeWhile Char.isDigit
        if shown.isEmpty then (none, afterFraction)
        else (some (sign * naturalOf shown), digits.drop shown.length)
      else (none, afterFraction)
    | [] => (none, [])
  if fraction.isEmpty ∧ power.isNone then
    (.int (if negative then -naturalOf whole else naturalOf whole), afterWhole)
  else
    let value := floatOf (naturalOf (whole ++ fraction)) (power.getD 0 - fraction.length)
    (.float (if negative then -value else value), afterPower)

def readNumber (source : List Char) : Except Refusal (Json × List Char) :=
  let (negative, digits) : Bool × List Char :=
    match source with
    | '-' :: rest => (true, rest)
    | _ => (false, source)
  match digits with
  | d :: _ => if d.isDigit then .ok (readMagnitude negative digits) else .error ⟨.value, source⟩
  | [] => .error ⟨.value, source⟩

def words : List (String × Json) := [
  ("null", .null), ("true", .bool true), ("false", .bool false), ("NaN", .float (0.0 / 0.0)),
  ("Infinity", .float (1.0 / 0.0)), ("-Infinity", .float (-1.0 / 0.0))]

def readWord? (source : List Char) : Option (Json × List Char) :=
  words.findSome? fun (word, value) =>
    if word.toList.isPrefixOf source then some (value, source.drop word.length) else none

mutual

def readValue : Nat → List Char → Except Refusal (Json × List Char)
  | 0, source => .error ⟨.value, source⟩
  | fuel + 1, source =>
    match source with
    | '"' :: rest => do
      let (text, after) ← readString source fuel [] rest
      pure (.str text, after)
    | '{' :: rest =>
      match skipBlanks rest with
      | '}' :: after => .ok (.obj [], after)
      | first => readFields fuel [] first
    | '[' :: rest =>
      match skipBlanks rest with
      | ']' :: after => .ok (.arr [], after)
      | first => readItems fuel [] first
    | _ =>
      match readWord? source with
      | some found => .ok found
      | none => readNumber source

/-- The items of a list from the next one on; those before it are in reverse. -/
def readItems : Nat → List Json → List Char → Except Refusal (Json × List Char)
  | 0, _, source => .error ⟨.value, source⟩
  | fuel + 1, taken, source => do
    let (item, after) ← readValue fuel source
    match skipBlanks after with
    | ']' :: rest => pure (.arr (item :: taken).reverse, rest)
    | ',' :: rest => readItems fuel (item :: taken) (skipBlanks rest)
    | other => throw ⟨.comma, other⟩

def readFields : Nat → List (String × Json) → List Char → Except Refusal (Json × List Char)
  | 0, _, source => .error ⟨.value, source⟩
  | fuel + 1, taken, source =>
    match source with
    | '"' :: rest => do
      let (key, afterKey) ← readString source fuel [] rest
      match skipBlanks afterKey with
      | ':' :: afterColon =>
        let (value, after) ← readValue fuel (skipBlanks afterColon)
        let fields := put key value taken
        match skipBlanks after with
        | '}' :: last => pure (.obj fields, last)
        | ',' :: more => readFields fuel fields (skipBlanks more)
        | other => throw ⟨.comma, other⟩
      | other => throw ⟨.colon, other⟩
    | _ => .error ⟨.fieldName, source⟩

end

def readAll (source : List Char) : Except Refusal Json := do
  if source.head? = some (Char.ofNat 0xfeff) then
    throw ⟨.byteOrderMark, source⟩
  let (value, after) ← readValue (2 * source.length + 2) (skipBlanks source)
  let left := skipBlanks after
  if left.isEmpty then pure value else throw ⟨.extraData, left⟩

def parse (text : String) : Except String Json :=
  (readAll text.toList).mapError (·.message text.toList)

end Zkvm.Json
