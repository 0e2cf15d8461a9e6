import Zkvm.Proofs.WordMachine.Basic

/-!
# Operations on words and on integers

The integer machine works on integers of any size and reduces some results to words, others not.  On
operands that are words each of its operations gives the value of the corresponding operation on
words; for the results that are not reduced this says that no reduction is needed.
-/
set_option autoImplicit false

namespace Zkvm.WordMachine

open Machine (word bitAnd bitOr bitXor shiftLeft shiftRight shiftCount residue truth)

def value (w : Word) : Int :=
  (w.toNat : Int)

/-- The word that stands for a number, which loses all bits above the lowest thirty-two. -/
def narrow (v : Int) : Word :=
  BitVec.ofInt 32 v

/-- The numbers that words stand for. -/
def IsWord (v : Int) : Prop :=
  0 ≤ v ∧ v < 4294967296

instance (v : Int) : Decidable (IsWord v) :=
  inferInstanceAs (Decidable (0 ≤ v ∧ v < 4294967296))

theorem value_isWord (w : Word) : IsWord (value w) := by
  have bound := w.isLt
  unfold IsWord value
  omega

theorem writable_value (w : Word) : Text.Writable (value w) := by
  have bound := w.isLt
  rw [Text.writable_iff, value, Int.natAbs_natCast]
  exact Text.lt_tooLong (by omega)

theorem value_narrow (v : Int) : value (narrow v) = word v := by
  have nonneg : 0 ≤ v % 4294967296 := Int.emod_nonneg v (by decide)
  simp only [value, narrow, word, BitVec.toNat_ofInt, Nat.reducePow]
  exact Int.toNat_of_nonneg nonneg

theorem word_of_isWord {v : Int} (isWord : IsWord v) : word v = v :=
  Int.emod_eq_of_lt isWord.1 isWord.2

theorem value_narrow_of_isWord {v : Int} (isWord : IsWord v) : value (narrow v) = v := by
  rw [value_narrow, word_of_isWord isWord]

theorem value_inj {a b : Word} : value a = value b ↔ a = b := by
  unfold value
  rw [Int.ofNat_inj, BitVec.toNat_inj]

theorem value_eq_zero {a : Word} : value a = 0 ↔ a = 0 :=
  value_inj (b := 0)

theorem value_beq_one (a : Word) : (value a == 1) = (a == 1) := by
  rw [Bool.eq_iff_iff, beq_iff_eq, beq_iff_eq]
  exact value_inj (b := 1)

/-- A number that agrees with a word modulo `2 ^ 32` is reduced to it. -/
theorem word_eq_value {v : Int} {w : Word} (n : Nat)
    (same : v % 4294967296 = (n : Int) % 4294967296) (result : w.toNat = n % 4294967296) :
    word v = value w := by
  rw [word, same, value, result]
  exact (Int.natCast_emod n 4294967296).symm

theorem word_add (a b : Word) : word (value a + value b) = value (a + b) :=
  word_eq_value (a.toNat + b.toNat) rfl (BitVec.toNat_add a b)

theorem word_sub (a b : Word) : word (value a - value b) = value (a - b) := by
  have bound := b.isLt
  apply word_eq_value (2 ^ 32 - b.toNat + a.toNat) _ (BitVec.toNat_sub a b)
  unfold value
  omega

theorem word_mul (a b : Word) : word (value a * value b) = value (a * b) := by
  apply word_eq_value (a.toNat * b.toNat) _ (BitVec.toNat_mul a b)
  rw [Int.natCast_mul]
  rfl

theorem fdiv_value (a b : Word) : Int.fdiv (value a) (value b) = value (a.udiv b) := by
  rw [value, value, value, Int.fdiv_eq_ediv_of_nonneg _ (Int.natCast_nonneg _), ← Int.natCast_ediv]
  rfl

theorem fmod_value (a b : Word) : Int.fmod (value a) (value b) = value (a.umod b) := by
  rw [value, value, value, Int.fmod_eq_emod_of_nonneg _ (Int.natCast_nonneg _), ← Int.natCast_emod]
  rfl

theorem bitAnd_value (a b : Word) : bitAnd (value a) (value b) = value (a &&& b) :=
  congrArg Int.ofNat (BitVec.toNat_and a b).symm

theorem bitOr_value (a b : Word) : bitOr (value a) (value b) = value (a ||| b) :=
  congrArg Int.ofNat (BitVec.toNat_or a b).symm

theorem bitXor_value (a b : Word) : bitXor (value a) (value b) = value (a ^^^ b) :=
  congrArg Int.ofNat (BitVec.toNat_xor a b).symm

theorem word_not (a : Word) : word (-value a - 1) = value (~~~a) := by
  have bound := a.isLt
  have complement : (~~~a).toNat = 2 ^ 32 - 1 - a.toNat := BitVec.toNat_not
  unfold word value
  omega

theorem shiftCount_value (count : Word) : shiftCount (value count) = count.toNat % 32 := by
  unfold shiftCount value
  omega

theorem shiftLeft_value (a count : Word) :
    shiftLeft (value a) (value count) = value (a <<< (count.toNat % 32)) := by
  rw [shiftLeft, shiftCount_value]
  apply word_eq_value (a.toNat <<< (count.toNat % 32)) _ (BitVec.toNat_shiftLeft)
  rw [Nat.shiftLeft_eq, Int.natCast_mul]
  rfl

theorem shiftRight_value (a count : Word) :
    shiftRight (value a) (value count) = value (a >>> (count.toNat % 32)) := by
  rw [shiftRight, shiftCount_value, value, value, BitVec.toNat_ushiftRight,
    Nat.shiftRight_eq_div_pow, Int.natCast_ediv]
  rfl

theorem truth_eq_flag {holds : Bool} {result : Bool} (same : holds = result) :
    truth holds = value (flag result) := by
  subst same
  cases holds <;> rfl

theorem decide_eq_beq (a b : Word) : decide (value a = value b) = (a == b) := by
  rw [Bool.eq_iff_iff, decide_eq_true_iff, beq_iff_eq]
  exact value_inj

theorem truth_eq (a b : Word) : truth (decide (value a = value b)) = value (flag (a == b)) :=
  truth_eq_flag (decide_eq_beq a b)

theorem truth_neq (a b : Word) : truth (!decide (value a = value b)) = value (flag (a != b)) :=
  truth_eq_flag (congrArg not (decide_eq_beq a b))

theorem truth_lt (a b : Word) : truth (decide (value a < value b)) = value (flag (a.ult b)) := by
  apply truth_eq_flag
  rw [Bool.eq_iff_iff, decide_eq_true_iff, BitVec.ult, decide_eq_true_iff]
  exact Int.ofNat_lt

theorem truth_le (a b : Word) : truth (decide (value a ≤ value b)) = value (flag (a.ule b)) := by
  apply truth_eq_flag
  rw [Bool.eq_iff_iff, decide_eq_true_iff, BitVec.ule, decide_eq_true_iff]
  exact Int.ofNat_le

/-- Every word is below the prime of `residue`, so hashing does not change it. -/
theorem word_residue (a : Word) : word (residue (value a)) = value a := by
  have bound := a.isLt
  have small : (value a).natAbs < 2305843009213693951 := by
    rw [value, Int.natAbs_natCast]
    omega
  have signed : (value a).sign * ((value a).natAbs % 2305843009213693951 : Nat) = value a := by
    rw [Nat.mod_eq_of_lt small]
    exact Int.sign_mul_natAbs (value a)
  have nonneg := (value_isWord a).1
  simp only [residue, signed]
  rw [if_neg (by omega), word_of_isWord (value_isWord a)]

theorem emod_two_value (a : Word) : value a % 2 = value (a &&& 1) := by
  rw [value, value, BitVec.toNat_and]
  have low : a.toNat &&& (1 : Word).toNat = a.toNat % 2 := Nat.and_one_is_mod _
  rw [low]
  rfl

end Zkvm.WordMachine
