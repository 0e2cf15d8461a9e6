import Mathlib.Algebra.BigOperators.Group.Finset.Basic
import Mathlib.Data.Int.ModEq
import Mathlib.Data.Nat.Bitwise
import Mathlib.Tactic.Linarith
import Mathlib.Tactic.LinearCombination
import Mathlib.Tactic.Positivity
import Mathlib.Tactic.Ring
import Zkvm.Machine.Bits

/-!
# Nibbles of integers

An integer of any size is cut into eight nibbles.  They are the digits to the base sixteen of its
low thirty-two bits: each is what a mask leaves of the shifted integer, and together they give the
integer modulo `2 ^ 32` back.
-/
set_option autoImplicit false

namespace Zkvm.Machine

open Finset (range sum_range_succ)

/-- A mask of four ones leaves the remainder by sixteen, also of a negative integer. -/
theorem bitAnd_fifteen (value : Int) : bitAnd value 15 = value % 16 := by
  cases value with
  | ofNat n =>
      change Int.ofNat (n &&& 15) = _
      rw [show n &&& 15 = n % 16 from Nat.and_two_pow_sub_one_eq_mod n 4]
      rfl
  | negSucc n =>
      -- The low bits of `-(n + 1)` are those that `n` does not have.
      have low : 15 &&& n = n % 16 :=
        (Nat.land_comm 15 n).trans (Nat.and_two_pow_sub_one_eq_mod n 4)
      have flipped : ∀ d < 16, 15 ^^^ d = 15 - d := by decide
      have small : n % 16 < 16 := Nat.mod_lt n (by decide)
      change Int.ofNat (15 ^^^ (15 &&& n)) = _
      rw [low, flipped _ small, Int.ofNat_eq_natCast, Int.negSucc_eq]
      omega

/-- The nibbles as they are cut: the integer is moved down by four places at a time and masked. -/
theorem nibbles_eq_masked (value : Int) :
    nibbles value = (List.range 8).map fun (i : Nat) => bitAnd (value >>> (4 * i)) 15 := by
  rw [nibbles]
  refine List.map_congr_left fun i _ => ?_
  rw [bitAnd_fifteen, Int.shiftRight_eq_div_pow, pow_mul]
  rfl

theorem length_nibbles (value : Int) : (nibbles value).length = 8 := by
  rw [nibbles, List.length_map, List.length_range]

theorem nibble_bounds {value nibble : Int} (member : nibble ∈ nibbles value) :
    0 ≤ nibble ∧ nibble < 16 := by
  obtain ⟨i, _, rfl⟩ := List.mem_map.mp member
  exact ⟨Int.emod_nonneg _ (by decide), Int.emod_lt_of_pos _ (by decide)⟩

theorem getD_nibbles (value : Int) {i : Nat} (inside : i < 8) :
    (nibbles value).getD i 0 = value / 16 ^ i % 16 := by
  simp [nibbles, List.getD_eq_getElem?_getD, inside]

theorem emod_pow_succ (value : Int) (count : Nat) :
    value % 16 ^ (count + 1) = value % 16 ^ count + value / 16 ^ count % 16 * 16 ^ count := by
  have weight : (0 : Int) < 16 ^ count := by positivity
  have low := Int.emod_nonneg value weight.ne'
  have lowLess := Int.emod_lt_of_pos value weight
  have digit := Int.emod_nonneg (value / 16 ^ count) (by decide : (16 : Int) ≠ 0)
  have digitLess := Int.emod_lt_of_pos (value / 16 ^ count) (by decide : (0 : Int) < 16)
  refine ((Int.ediv_emod_unique (q := value / 16 ^ count / 16) (by positivity)).mpr ⟨?_, ?_, ?_⟩).2
  · have outer := Int.mul_ediv_add_emod value (16 ^ count)
    have inner := Int.mul_ediv_add_emod (value / 16 ^ count) 16
    rw [pow_succ]
    linear_combination outer + 16 ^ count * inner
  · positivity
  · rw [pow_succ]
    nlinarith

/-- The lowest digits of an integer give its remainder back. -/
theorem sum_digits (value : Int) (count : Nat) :
    ∑ i ∈ range count, value / 16 ^ i % 16 * 16 ^ i = value % 16 ^ count := by
  induction count with
  | zero => simp
  | succ count ih =>
      rw [sum_range_succ, ih, emod_pow_succ]

theorem sum_nibbles (value : Int) :
    ∑ i ∈ range 8, (nibbles value).getD i 0 * 16 ^ i = value % 2 ^ 32 := by
  rw [show (2 : Int) ^ 32 = 16 ^ 8 by norm_num, ← sum_digits]
  refine Finset.sum_congr rfl fun i inside => ?_
  rw [getD_nibbles value (Finset.mem_range.mp inside)]

/-- A digit depends only on the remainder by a higher power. -/
theorem digit_of_modEq {first second : Int} {i count : Nat} (inside : i < count)
    (same : first ≡ second [ZMOD 16 ^ count]) : first / 16 ^ i % 16 = second / 16 ^ i % 16 := by
  obtain ⟨more, rfl⟩ := Nat.exists_eq_add_of_lt inside
  obtain ⟨k, apart⟩ := same.dvd
  have shifted : second = first + 16 ^ i * (16 * (16 ^ more * k)) := by
    rw [← sub_eq_iff_eq_add', apart]
    ring
  rw [shifted, Int.add_mul_ediv_left _ _ (by positivity), Int.add_mul_emod_self_left]

theorem nibbles_eq_iff (first second : Int) :
    nibbles first = nibbles second ↔ first ≡ second [ZMOD 2 ^ 32] := by
  constructor
  · intro same
    rw [Int.ModEq, ← sum_nibbles, ← sum_nibbles, same]
  · intro same
    rw [show (2 : Int) ^ 32 = 16 ^ 8 by norm_num] at same
    refine List.map_congr_left fun i inside => ?_
    exact digit_of_modEq (List.mem_range.mp inside) same

/-- Eight nibbles are cut from any integer by shifts and masks.  They are the digits of the integer
modulo `2 ^ 32`, so they tell two integers apart exactly if those differ modulo `2 ^ 32`. -/
theorem nibbles_exact (value : Int) :
    nibbles value = (List.range 8).map (fun (i : Nat) => bitAnd (value >>> (4 * i)) 15) ∧
      (nibbles value).length = 8 ∧
      (∀ nibble ∈ nibbles value, 0 ≤ nibble ∧ nibble < 16) ∧
      ∑ i ∈ range 8, (nibbles value).getD i 0 * 16 ^ i = value % 2 ^ 32 ∧
      ∀ other, nibbles other = nibbles value ↔ other ≡ value [ZMOD 2 ^ 32] :=
  ⟨nibbles_eq_masked value, length_nibbles value, fun _ => nibble_bounds, sum_nibbles value,
    fun other => nibbles_eq_iff other value⟩

example :
    nibbles (-2) = [14, 15, 15, 15, 15, 15, 15, 15] ∧ nibbles (-2) = nibbles 4294967294 := by decide

end Zkvm.Machine
