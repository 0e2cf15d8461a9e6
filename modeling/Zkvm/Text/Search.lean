/-!
# Looking into texts

Finding, splitting and trimming, on lists of characters and on strings.
-/
set_option autoImplicit false

namespace Zkvm.Text

def findFrom (needle : List Char) : Nat → List Char → Option Nat
  | at', [] => if needle.isEmpty then some at' else none
  | at', c :: rest =>
    if needle.isPrefixOf (c :: rest) then some at' else findFrom needle (at' + 1) rest

def find? (needle text : String) : Option Nat :=
  findFrom needle.toList 0 text.toList

def mentions (text needle : String) : Bool :=
  (find? needle text).isSome

def splitChars (separator : Char) : List Char → List (List Char)
  | [] => [[]]
  | c :: rest =>
    if c = separator then [] :: splitChars separator rest
    else
      match splitChars separator rest with
      | first :: more => (c :: first) :: more
      | [] => [[c]]

def split (separator : Char) (text : String) : List String :=
  (splitChars separator text.toList).map String.ofList

/-- White space of Unicode, with the four separators of ASCII. -/
def isSpace (c : Char) : Bool :=
  let code := c.toNat
  (9 ≤ code && code ≤ 13) || (28 ≤ code && code ≤ 32) || code = 0x85 || code = 0xa0 ||
    code = 0x1680 || (0x2000 ≤ code && code ≤ 0x200a) || code = 0x2028 || code = 0x2029 ||
    code = 0x202f || code = 0x205f || code = 0x3000

def trimChars (text : List Char) : List Char :=
  ((text.dropWhile isSpace).reverse.dropWhile isSpace).reverse

def trim (text : String) : String :=
  String.ofList (trimChars text.toList)

def take (count : Nat) (text : String) : String :=
  String.ofList (text.toList.take count)

/-- The characters from `first` up to but not including `last`. -/
def slice (first last : Nat) (text : String) : String :=
  String.ofList ((text.toList.take last).drop first)

def hasSuffix (suffix text : String) : Bool :=
  suffix.toList.isSuffixOf text.toList

def hasPrefix (start text : String) : Bool :=
  start.toList.isPrefixOf text.toList

def lines (items : List String) : String :=
  "\n".intercalate items

def padRight (width : Nat) (text : String) : String :=
  text ++ String.ofList (List.replicate (width - text.length) ' ')

def repeated (count : Nat) (c : Char) : String :=
  String.ofList (List.replicate count c)

/-- The two-character and the one-character return that end a line are read as line breaks. -/
def unifyLineEnds : List Char → List Char
  | [] => []
  | '\r' :: '\n' :: rest => '\n' :: unifyLineEnds rest
  | '\r' :: rest => '\n' :: unifyLineEnds rest
  | c :: rest => c :: unifyLineEnds rest

end Zkvm.Text
