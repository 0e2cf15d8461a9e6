import Mathlib.Algebra.GroupWithZero.Nat
import Mathlib.Data.List.Basic
import Zkvm.Text.Quoted

/-!
# Digits of numbers and lengths of texts

A number can be read back from its digits, decimal or hexadecimal, and decimal digits at the end of
a text can be told from what stands before them.  Texts that are joined are as long as all of them
with what stands between them.
-/
set_option autoImplicit false

namespace Zkvm.Text

/-! ## Lengths -/

theorem length_intercalate (between : String) {texts : List String} (filled : texts ≠ []) :
    (between.intercalate texts).length + between.length =
      (texts.map fun text => text.length + between.length).sum := by
  induction texts with
  | nil => exact absurd rfl filled
  | cons text rest ih =>
      cases rest with
      | nil => simp
      | cons next more =>
          rw [String.intercalate_cons_of_ne_nil (List.cons_ne_nil _ _), String.length_append,
            String.length_append, List.map_cons, List.sum_cons, ← ih (List.cons_ne_nil _ _)]
          omega

/-! ## Decimal digits -/

theorem isDigit_of_mem_toString {n : Nat} {c : Char} (member : c ∈ (toString n).toList) :
    c.isDigit = true := by
  rw [Nat.toString_eq_repr, Nat.repr, String.toList_ofList] at member
  exact Nat.isDigit_of_mem_toDigits (by decide) (by decide) member

theorem ofDigitChars_toString (n : Nat) : Nat.ofDigitChars 10 (toString n).toList 0 = n := by
  rw [Nat.toString_eq_repr, Nat.repr_eq_ofList_toDigits, String.toList_ofList]
  exact Nat.ofDigitChars_toDigits (by decide) (by decide)

theorem eq_of_toList_toString {m n : Nat} (same : (toString m).toList = (toString n).toList) :
    m = n := by
  rw [← ofDigitChars_toString m, same, ofDigitChars_toString]

/-- What follows the last sign that is no digit can be read off the end. -/
theorem digits_inj {front front' digits digits' : List Char} {c : Char} (mark : c.isDigit = false)
    (all : ∀ d ∈ digits, d.isDigit = true) (all' : ∀ d ∈ digits', d.isDigit = true)
    (same : front ++ [c] ++ digits = front' ++ [c] ++ digits') :
    front = front' ∧ digits = digits' := by
  have back (first last : List Char) (digits : ∀ d ∈ last, d.isDigit = true) :
      (first ++ [c] ++ last).reverse.takeWhile Char.isDigit = last.reverse := by
    rw [List.reverse_append, List.takeWhile_append_of_pos (by simpa using digits),
      List.reverse_append]
    simp [mark]
  have digitsEq : digits = digits' := by
    have := congrArg (fun text : List Char => text.reverse.takeWhile Char.isDigit) same
    simp only [back _ _ all, back _ _ all'] at this
    exact List.reverse_injective this
  subst digitsEq
  have fronts := List.append_cancel_right same
  exact ⟨List.append_cancel_right fronts, rfl⟩

/-! ## Hexadecimal digits -/

def hexDigit (c : Char) : Nat :=
  if c.isDigit then c.toNat - 48 else c.toNat - 87

def hexValue (digits : List Char) : Nat :=
  digits.foldl (fun value c => 16 * value + hexDigit c) 0

theorem hexDigit_digitChar : ∀ d < 16, hexDigit (Nat.digitChar d) = d := by
  decide

theorem hexValue_toDigits (n : Nat) : hexValue (Nat.toDigits 16 n) = n := by
  induction n using Nat.strongRecOn with
  | ind n ih =>
      rw [Nat.toDigits_eq_if (by decide)]
      split
      · rename_i small
        simp [hexValue, hexDigit_digitChar n small]
      · rename_i large
        have front := ih (n / 16) (by omega)
        rw [hexValue] at front
        rw [hexValue, List.foldl_append, front]
        simp only [List.foldl_cons, List.foldl_nil, hexDigit_digitChar (n % 16) (by omega)]
        omega

theorem toList_hex (width code : Nat) :
    (hex width code).toList =
      List.replicate (width - (Nat.toDigits 16 code).length) '0' ++ Nat.toDigits 16 code := by
  rw [hex, padZeros, String.toList_append, String.toList_ofList, String.toList_ofList,
    String.length_ofList]

theorem hexValue_hex (width code : Nat) : hexValue (hex width code).toList = code := by
  have zeros (count : Nat) :
      (List.replicate count '0').foldl (fun value c => 16 * value + hexDigit c) 0 = 0 := by
    induction count with
    | zero => rfl
    | succ count ih => exact ih
  rw [toList_hex, hexValue, List.foldl_append, zeros]
  exact hexValue_toDigits code

end Zkvm.Text
