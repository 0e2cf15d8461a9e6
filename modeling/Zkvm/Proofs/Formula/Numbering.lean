import Zkvm.Proofs.Circuit.Parts
import Zkvm.Proofs.Formula.Row

/-!
# Numbered names

A numbered name is a word without digits followed by a number.  Word and number can be told apart
again, so names with different words or different numbers are different, and an assignment may be
given by rows: a value for every word and every number.  If a second number follows, set off by an
underscore, an assignment may be given by cells.
-/
set_option autoImplicit false

namespace Zkvm.Formula

def Wordy (word : String) : Prop :=
  ∀ c ∈ word.toList, c.isDigit = false

instance (word : String) : Decidable (Wordy word) :=
  decidable_of_iff (word.toList.all fun c => !c.isDigit) (by simp [Wordy, List.all_eq_true])

/-- What stands before the first digit of a name. -/
def wordOf (name : String) : String :=
  String.ofList (name.toList.takeWhile fun c => !c.isDigit)

/-- The number that a name ends with, or zero. -/
def numberOf (name : String) : Nat :=
  Nat.ofDigitChars 10 (name.toList.dropWhile fun c => !c.isDigit) 0

/-- The assignment that has, in a name, the value of the row of its word at the place of its
number. -/
def ofRows (rows : String → Nat → Bool) : Assignment :=
  fun name => rows (wordOf name) (numberOf name)

/-- The two numbers of a name, with one sign between them; without a second one, that is zero. -/
def cellOf (name : String) : Nat × Nat :=
  let numerals := name.toList.dropWhile fun c => !c.isDigit
  (Nat.ofDigitChars 10 (numerals.takeWhile Char.isDigit) 0,
    Nat.ofDigitChars 10 ((numerals.dropWhile Char.isDigit).drop 1) 0)

/-- The assignment that has, in a name, the value of the cell of its word at its two numbers. -/
def ofCells (cells : String → Nat → Nat → Bool) : Assignment :=
  fun name => cells (wordOf name) (cellOf name).1 (cellOf name).2

section Append
variable {word digits : String}

theorem takeWhile_word (wordy : Wordy word)
    (boundary : ∀ c, digits.toList.head? = some c → c.isDigit = true) :
    (word ++ digits).toList.takeWhile (fun c => !c.isDigit) = word.toList ∧
      (word ++ digits).toList.dropWhile (fun c => !c.isDigit) = digits.toList := by
  have front : ∀ c ∈ word.toList, (!c.isDigit) = true := by
    intro c member
    rw [wordy c member]
    rfl
  rw [String.toList_append, List.takeWhile_append_of_pos front, List.dropWhile_append_of_pos front]
  cases letters : digits.toList with
  | nil => simp
  | cons c rest =>
      have first : c.isDigit = true := boundary c (by simp [letters])
      simp [first]

theorem wordOf_append (wordy : Wordy word)
    (boundary : ∀ c, digits.toList.head? = some c → c.isDigit = true) :
    wordOf (word ++ digits) = word := by
  rw [wordOf, (takeWhile_word wordy boundary).1, String.ofList_toList]

theorem numberOf_append (wordy : Wordy word) (numeral : ∀ c ∈ digits.toList, c.isDigit = true) :
    numberOf (word ++ digits) = Nat.ofDigitChars 10 digits.toList 0 := by
  rw [numberOf, (takeWhile_word wordy fun c first => numeral c (List.mem_of_head? first)).2]

end Append

section Wire
variable {word : String} (wordy : Wordy word) (i : Nat)
include wordy

theorem wordOf_wireName : wordOf (wireName word i) = word :=
  wordOf_append wordy fun _ first => Text.isDigit_of_mem_toString (List.mem_of_head? first)

theorem numberOf_wireName : numberOf (wireName word i) = i :=
  (numberOf_append wordy fun _ => Text.isDigit_of_mem_toString).trans (Text.ofDigitChars_toString i)

theorem ofRows_wireName (rows : String → Nat → Bool) :
    ofRows rows (wireName word i) = rows word i := by
  rw [ofRows, wordOf_wireName wordy, numberOf_wireName wordy]

end Wire

section Cell
variable {word : String} (wordy : Wordy word) (n i : Nat)

theorem head?_numerals {rest : String} {c : Char}
    (first : (toString n ++ rest).toList.head? = some c) :
    c.isDigit = true := by
  have digits : (toString n).toList ≠ [] := by
    rw [Nat.toString_eq_repr, Nat.repr_eq_ofList_toDigits, String.toList_ofList]
    exact Nat.toDigits_ne_nil
  rw [String.toList_append, List.head?_append_of_ne_nil _ digits] at first
  exact Text.isDigit_of_mem_toString (List.mem_of_head? first)

include wordy

theorem cellOf_append {rest : String}
    (boundary : ∀ c, rest.toList.head? = some c → c.isDigit = false) :
    cellOf (word ++ (toString n ++ rest)) = (n, Nat.ofDigitChars 10 (rest.toList.drop 1) 0) := by
  have digits : ∀ c ∈ (toString n).toList, c.isDigit = true := fun _ => Text.isDigit_of_mem_toString
  have stop : rest.toList.takeWhile Char.isDigit = [] ∧
      rest.toList.dropWhile Char.isDigit = rest.toList := by
    cases letters : rest.toList with
    | nil => simp
    | cons c more =>
        have first : c.isDigit = false := boundary c (by simp [letters])
        simp [first]
  have numerals : (word ++ (toString n ++ rest)).toList.dropWhile (fun c => !c.isDigit) =
    (toString n ++ rest).toList :=
    (takeWhile_word wordy fun _ => head?_numerals n).2
  rw [cellOf, numerals, String.toList_append, List.takeWhile_append_of_pos digits,
    List.dropWhile_append_of_pos digits, stop.1, stop.2, List.append_nil,
    Text.ofDigitChars_toString]

theorem ofCells_wireName (cells : String → Nat → Nat → Bool) :
    ofCells cells (wireName word n) = cells word n 0 := by
  have place : cellOf (wireName word n) = (n, 0) := by
    have cell : cellOf (word ++ (toString n ++ "")) = (n, 0) := cellOf_append wordy n (by simp)
    rwa [String.append_empty] at cell
  rw [ofCells, wordOf_wireName wordy, place]

theorem wordOf_cell : wordOf (word ++ toString n ++ "_" ++ toString i) = word := by
  rw [String.append_assoc, String.append_assoc]
  exact wordOf_append wordy fun _ => head?_numerals n

theorem ofCells_cell (cells : String → Nat → Nat → Bool) :
    ofCells cells (word ++ toString n ++ "_" ++ toString i) = cells word n i := by
  have letters : ("_" ++ toString i).toList = '_' :: (toString i).toList := String.toList_append
  have mark : ∀ c, ("_" ++ toString i).toList.head? = some c → c.isDigit = false := by
    intro c first
    rw [letters] at first
    cases first
    rfl
  have place : cellOf (word ++ toString n ++ "_" ++ toString i) = (n, i) := by
    rw [String.append_assoc, String.append_assoc, cellOf_append wordy n mark, letters,
      List.drop_one, List.tail_cons, Text.ofDigitChars_toString]
  rw [ofCells, wordOf_cell wordy, place]

end Cell

theorem update_of_word {value : Assignment} {own name : String} (apart : wordOf name ≠ wordOf own)
    (bit : Bool) :
    Function.update value own bit name = value name :=
  Function.update_of_ne (fun same => apart (congrArg wordOf same)) _ _

end Zkvm.Formula
