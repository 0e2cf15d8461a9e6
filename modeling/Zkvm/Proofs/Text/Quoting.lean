import Mathlib
import Zkvm.Proofs.Text.Digits

/-!
# Texts that can be told from what follows

A quoted text ends where its mark stands unescaped, and a list of quoted texts where its bracket
does, so that whatever is written after them can be told from them.  Numbers end before the first
sign that is not of a number.
-/
set_option autoImplicit false

namespace Zkvm.Text

/-! ## Writing with an end -/

section Told
variable {α β : Type}

/-- What is written can be told from what follows, if that begins with a stop or is empty. -/
def ToldBefore (stop : Char → Bool) (write : α → List Char) : Prop :=
  ∀ ⦃a b : α⦄ ⦃rest rest' : List Char⦄, rest.head?.all stop = true → rest'.head?.all stop = true →
    write a ++ rest = write b ++ rest' → a = b ∧ rest = rest'

/-- What is written can be told from whatever follows. -/
def Told (write : α → List Char) : Prop :=
  ∀ ⦃a b : α⦄ ⦃rest rest' : List Char⦄, write a ++ rest = write b ++ rest' → a = b ∧ rest = rest'

variable {stop : Char → Bool} {write : α → List Char}

theorem Told.before (told : Told write) : ToldBefore stop write :=
  fun _ _ _ _ _ _ same => told same

theorem ToldBefore.mono {stop' : Char → Bool} (told : ToldBefore stop write)
    (weaker : ∀ c, stop' c = true → stop c = true) : ToldBefore stop' write := by
  intro a b rest rest' ends ends' same
  have further (rest : List Char) (ends : rest.head?.all stop' = true) :
      rest.head?.all stop = true := by
    cases rest with
    | nil => rfl
    | cons c rest => exact weaker c ends
  exact told (further rest ends) (further rest' ends') same

theorem Told.injective (told : Told write) : Function.Injective write := by
  intro a b same
  have whole : write a ++ [] = write b ++ [] := by rw [same]
  exact (told whole).1

theorem ToldBefore.pair {write' : β → List Char} (told : Told write)
    (told' : ToldBefore stop write') (between : List Char) :
    ToldBefore stop fun pair : α × β => write pair.1 ++ between ++ write' pair.2 := by
  rintro ⟨a, b⟩ ⟨c, d⟩ rest rest' ends ends' same
  simp only [List.append_assoc] at same
  obtain ⟨rfl, seconds⟩ := told same
  obtain ⟨rfl, rests⟩ := told' ends ends' (List.append_cancel_left seconds)
  exact ⟨rfl, rests⟩

def listed (write : α → List Char) (close : Char) (items : List α) : List Char :=
  [',', ' '].intercalate (items.map write) ++ [close]

theorem listed_cons (close : Char) (item : α) (rest : List α) :
    listed write close (item :: rest) =
      write item ++ if rest = [] then [close] else ',' :: ' ' :: listed write close rest := by
  cases rest with
  | nil => simp [listed]
  | cons next later => simp [listed, List.intercalate_cons_cons]

theorem told_listed {close : Char} (told : ToldBefore (fun c => c = ',' || c = close) write)
    (other : close ≠ ',') (opens : ∀ a, ∃ c rest, write a = c :: rest ∧ c ≠ close) :
    Told (listed write close) := by
  intro items items' rest rest' same
  induction items generalizing items' with
  | nil =>
      cases items' with
      | nil => simpa [listed] using same
      | cons b bs =>
          obtain ⟨c, front, begins, differs⟩ := opens b
          rw [listed_cons, begins] at same
          exact absurd (List.cons.inj same).1.symm differs
  | cons a as ih =>
      cases items' with
      | nil =>
          obtain ⟨c, front, begins, differs⟩ := opens a
          rw [listed_cons, begins] at same
          exact absurd (List.cons.inj same).1 differs
      | cons b bs =>
          rw [listed_cons, listed_cons, List.append_assoc, List.append_assoc] at same
          have ends (items : List α) (rest : List Char) :
              ((if items = [] then [close] else ',' :: ' ' :: listed write close items) ++
                rest).head?.all
                (fun c => c = ',' || c = close) = true := by
            split <;> simp
          obtain ⟨rfl, tails⟩ := told (ends as rest) (ends bs rest') same
          by_cases last : as = []
          · by_cases last' : bs = []
            · rw [if_pos last, if_pos last'] at tails
              rw [last, last']
              exact ⟨rfl, (List.cons.inj tails).2⟩
            · rw [if_pos last, if_neg last'] at tails
              exact absurd (List.cons.inj tails).1 other
          · by_cases last' : bs = []
            · rw [if_neg last, if_pos last'] at tails
              exact absurd (List.cons.inj tails).1.symm other
            · rw [if_neg last, if_neg last'] at tails
              obtain ⟨rfl, rests⟩ := ih (List.cons.inj (List.cons.inj tails).2).2
              exact ⟨rfl, rests⟩

end Told

/-! ## Numbers -/

theorem sign_of_mem_toString {i : Int} {c : Char} (member : c ∈ (toString i).toList) :
    (c.isDigit || c = '-') = true := by
  cases i with
  | ofNat n =>
      have digit : c.isDigit = true := isDigit_of_mem_toString (n := n) member
      simp [digit]
  | negSucc n =>
      have text : toString (Int.negSucc n) = "-" ++ (n + 1).repr := rfl
      rw [text, String.toList_append, List.mem_append] at member
      rcases member with minus | digits
      · obtain rfl : c = '-' := List.mem_singleton.mp minus
        decide
      · simp [isDigit_of_mem_toString (n := n + 1) digits]

theorem toldBefore_int :
    ToldBefore (fun c => !(c.isDigit || c = '-')) fun i : Int => (toString i).toList := by
  intro i j rest rest' ends ends' same
  have number (i : Int) (rest : List Char)
      (ends : rest.head?.all (fun c => !(c.isDigit || c = '-')) = true) :
      ((toString i).toList ++ rest).takeWhile (fun c => c.isDigit || c = '-') =
        (toString i).toList := by
    rw [List.takeWhile_append_of_pos fun c => sign_of_mem_toString]
    cases rest with
    | nil => simp
    | cons c rest => simpa using ends
  have numbers : (toString i).toList = (toString j).toList := by
    rw [← number i rest ends, ← number j rest' ends', same]
  dsimp only at same
  rw [numbers] at same
  exact ⟨Int.repr_injective (String.ext numbers), List.append_cancel_left same⟩

/-! ## Quoted characters -/

/-- The character of a number; the number of half a character gives the character that is kept for
it. -/
def charOfCode (code : Nat) : Char :=
  if 0xd800 ≤ code ∧ code ≤ 0xdfff then Char.ofNat (code + Json.loneHalfShift) else Char.ofNat code

/-- Reads what follows a backslash. -/
def readEscape : List Char → Option (Char × List Char)
  | [] => none
  | c :: rest =>
    if c = 'n' then some ('\n', rest)
    else if c = 'r' then some ('\r', rest)
    else if c = 't' then some ('\t', rest)
    else if c = 'x' then some (charOfCode (hexValue (rest.take 2)), rest.drop 2)
    else if c = 'u' then some (charOfCode (hexValue (rest.take 4)), rest.drop 4)
    else if c = 'U' then some (charOfCode (hexValue (rest.take 8)), rest.drop 8)
    else some (c, rest)

def readQuoted : List Char → Option (Char × List Char)
  | [] => none
  | c :: rest => if c = '\\' then readEscape rest else some (c, rest)

theorem charOfCode_toNat (c : Char) : charOfCode c.toNat = c := by
  have valid : c.toNat < 0xd800 ∨ 0xdfff < c.toNat ∧ c.toNat < 0x110000 := c.valid
  rw [charOfCode, if_neg (by omega), Char.ofNat_toNat]

theorem charOfCode_loneHalf {c : Char} {half : Nat} (alone : Json.loneHalf? c = some half) :
    half < 0x10000 ∧ charOfCode half = c := by
  rw [Json.loneHalf?, Json.loneHalfShift] at alone
  split at alone
  · rename_i within
    have shifted := Option.some.inj alone
    have back : half + 0xec800 = c.toNat := by omega
    refine ⟨by omega, ?_⟩
    rw [charOfCode, if_pos (by omega), Json.loneHalfShift, back, Char.ofNat_toNat]
  · cases alone

theorem length_hex {width code : Nat} (wide : 0 < width) (fits : code < 16 ^ width) :
    (hex width code).toList.length = width := by
  have short := (Nat.length_toDigits_le_iff (by decide) wide).mpr fits
  rw [toList_hex, List.length_append, List.length_replicate]
  omega

section Escape
variable {code : Nat} (rest : List Char)

theorem split_hex {width : Nat} (wide : 0 < width) (fits : code < 16 ^ width) :
    hexValue (((hex width code).toList ++ rest).take width) = code ∧
      ((hex width code).toList ++ rest).drop width = rest := by
  have length := length_hex wide fits
  exact ⟨by rw [List.take_left' length, hexValue_hex], List.drop_left' length⟩

theorem readEscape_byte (fits : code < 16 ^ 2) :
    readEscape ('x' :: ((hex 2 code).toList ++ rest)) = some (charOfCode code, rest) := by
  obtain ⟨value, remains⟩ := split_hex rest (by decide) fits
  rw [readEscape, if_neg (by decide), if_neg (by decide), if_neg (by decide), if_pos rfl, value,
    remains]

theorem readEscape_short (fits : code < 16 ^ 4) :
    readEscape ('u' :: ((hex 4 code).toList ++ rest)) = some (charOfCode code, rest) := by
  obtain ⟨value, remains⟩ := split_hex rest (by decide) fits
  rw [readEscape, if_neg (by decide), if_neg (by decide), if_neg (by decide), if_neg (by decide),
    if_pos rfl, value, remains]

theorem readEscape_long (fits : code < 16 ^ 8) :
    readEscape ('U' :: ((hex 8 code).toList ++ rest)) = some (charOfCode code, rest) := by
  obtain ⟨value, remains⟩ := split_hex rest (by decide) fits
  rw [readEscape, if_neg (by decide), if_neg (by decide), if_neg (by decide), if_neg (by decide),
    if_neg (by decide), if_pos rfl, value, remains]

end Escape

theorem readQuoted_quotedChar {mark : Char} (isMark : mark = '\x27' ∨ mark = '"') (c : Char)
    (rest : List Char) :
    readQuoted ((quotedChar mark c).toList ++ rest) = some (c, rest) := by
  rw [quotedChar]
  split_ifs with marked newline return' tab hidden byte short
  · have plain : c = '\x27' ∨ c = '"' ∨ c = '\\' := by
      rcases marked with rfl | rfl
      · exact isMark.imp_right Or.inl
      · exact .inr (.inr rfl)
    rcases plain with rfl | rfl | rfl <;> rfl
  · rw [newline]
    rfl
  · rw [return']
    rfl
  · rw [tab]
    rfl
  · rw [String.toList_append]
    exact (readEscape_byte rest byte).trans (by rw [charOfCode_toNat])
  · rw [String.toList_append]
    exact (readEscape_short rest short).trans (by rw [charOfCode_toNat])
  · cases alone : Json.loneHalf? c with
    | some half =>
        obtain ⟨fits, same⟩ := charOfCode_loneHalf alone
        dsimp only
        rw [String.toList_append]
        exact (readEscape_short rest fits).trans (by rw [same])
    | none =>
        have bound : c.toNat < 0xd800 ∨ 0xdfff < c.toNat ∧ c.toNat < 0x110000 := c.valid
        dsimp only
        rw [String.toList_append]
        exact (readEscape_long rest (by omega)).trans (by rw [charOfCode_toNat])
  · rw [String.toList_singleton]
    exact if_neg fun backslash => marked (.inr backslash)

/-! ## Quoted texts -/

def markOf (text : String) : Char :=
  if text.toList.contains '\x27' && !text.toList.contains '"' then '"' else '\x27'

theorem markOf_cases (text : String) : markOf text = '\x27' ∨ markOf text = '"' := by
  rw [markOf]
  split
  · exact .inr rfl
  · exact .inl rfl

/-- The characters of a text as they stand between its marks, and the mark after them. -/
def quotedBody (mark : Char) (letters : List Char) : List Char :=
  letters.flatMap (fun c => (quotedChar mark c).toList) ++ [mark]

theorem toList_quoted (text : String) :
    (quoted text).toList = markOf text :: quotedBody (markOf text) text.toList := by
  have written (letters : List Char) (front : String) :
      (letters.foldl (fun out c => out ++ quotedChar (markOf text) c) front).toList =
        front.toList ++ letters.flatMap fun c => (quotedChar (markOf text) c).toList := by
    induction letters generalizing front with
    | nil => simp
    | cons c rest ih =>
        rw [List.foldl_cons, ih, String.toList_append, List.flatMap_cons, List.append_assoc]
  have shape : quoted text = text.foldl (fun out c => out ++ quotedChar (markOf text) c)
      (String.singleton (markOf text)) ++ String.singleton (markOf text) := rfl
  rw [shape, String.foldl_eq_foldl_toList, String.toList_append, written, String.toList_singleton,
    quotedBody]
  rfl

section Mark
variable {mark : Char} (isMark : mark = '\x27' ∨ mark = '"')
include isMark

/-- No character between the marks begins with the mark. -/
theorem head_quotedChar (c : Char) :
    ∃ first rest, (quotedChar mark c).toList = first :: rest ∧ first ≠ mark := by
  have backslash : '\\' ≠ mark := by
    rcases isMark with rfl | rfl <;> decide
  rw [quotedChar]
  split_ifs with marked newline return' tab hidden byte short
  · exact ⟨'\\', [c], String.toList_ofList, backslash⟩
  · exact ⟨'\\', ['n'], rfl, backslash⟩
  · exact ⟨'\\', ['r'], rfl, backslash⟩
  · exact ⟨'\\', ['t'], rfl, backslash⟩
  · exact ⟨'\\', _, String.toList_append, backslash⟩
  · exact ⟨'\\', _, String.toList_append, backslash⟩
  · cases Json.loneHalf? c with
    | some half => exact ⟨'\\', _, String.toList_append, backslash⟩
    | none => exact ⟨'\\', _, String.toList_append, backslash⟩
  · exact ⟨c, [], String.toList_singleton c, fun same => marked (.inl same)⟩

theorem told_quotedBody : Told (quotedBody mark) := by
  intro letters letters' rest rest' same
  have cons (c : Char) (letters rest : List Char) :
      quotedBody mark (c :: letters) ++ rest =
        (quotedChar mark c).toList ++ (quotedBody mark letters ++ rest) := by
    simp [quotedBody]
  induction letters generalizing letters' with
  | nil =>
      cases letters' with
      | nil => exact ⟨rfl, (List.cons.inj same).2⟩
      | cons d letters' =>
          obtain ⟨first, more, begins, differs⟩ := head_quotedChar isMark d
          rw [cons, begins] at same
          exact absurd (List.cons.inj same).1.symm differs
  | cons c letters ih =>
      cases letters' with
      | nil =>
          obtain ⟨first, more, begins, differs⟩ := head_quotedChar isMark c
          rw [cons, begins] at same
          exact absurd (List.cons.inj same).1 differs
      | cons d letters' =>
          have read := congrArg readQuoted same
          rw [cons, cons, readQuoted_quotedChar isMark, readQuoted_quotedChar isMark] at read
          obtain ⟨rfl, later⟩ := Prod.mk.inj (Option.some.inj read)
          obtain ⟨rfl, rests⟩ := ih later
          exact ⟨rfl, rests⟩

end Mark

theorem told_quoted : Told fun text => (quoted text).toList := by
  intro text text' rest rest' same
  dsimp only at same
  rw [toList_quoted, toList_quoted, List.cons_append, List.cons_append, List.cons.injEq] at same
  rw [← same.1] at same
  obtain ⟨letters, rests⟩ := told_quotedBody (markOf_cases text) same.2
  exact ⟨String.ext letters, rests⟩

theorem toList_quotedList (items : List String) :
    (quotedList items).toList = '[' :: listed (fun text => (quoted text).toList) ']' items := by
  rw [quotedList, String.toList_append, String.toList_append, String.toList_intercalate,
    List.map_map]
  rfl

/-- A list of quoted texts can be told from whatever follows it. -/
theorem told_quotedList : Told fun items => (quotedList items).toList := by
  have told : Told (listed (fun text => (quoted text).toList) ']') := by
    refine told_listed told_quoted.before (by decide) fun text => ⟨_, _, toList_quoted text, ?_⟩
    rcases markOf_cases text with mark | mark <;> rw [mark] <;> decide
  intro items items' rest rest' same
  dsimp only at same
  rw [toList_quotedList, toList_quotedList] at same
  exact told (List.cons.inj same).2

end Zkvm.Text
