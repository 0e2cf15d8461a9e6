import Mathlib
import Zkvm.Text.Decimal

/-!
# Rounded quotients

The double nearest to a quotient of two counts, and what it becomes as a percentage.  Rounding drops
digits one by one and keeps of them what tells on which side of a half they lie, so that it amounts
to the nearest whole number of units in the last place.  A share comes out as one hundred percent
exactly if at most one in `2 ^ 54` is missing.
-/
set_option autoImplicit false

namespace Zkvm.Text

open Float.Model Float.Model.UnpackedFloat

/-! ## The nearest whole number -/

section Nearest

variable {num den : Nat}

theorem roundHalfEven_le (positive : 0 < den) :
    2 * (den * roundHalfEven num den) ≤ 2 * num + den := by
  have split := Nat.div_add_mod num den
  have small := Nat.mod_lt num positive
  unfold roundHalfEven
  dsimp only
  split
  · omega
  · rename_i up
    rw [Nat.mul_add]
    simp at up
    omega

theorem roundHalfEven_eq {nearest : Nat} (positive : 0 < den) (even : nearest % 2 = 0)
    (notAbove : 2 * (den * nearest) ≤ 2 * num + den)
    (notBelow : 2 * num ≤ 2 * (den * nearest) + den) :
    roundHalfEven num den = nearest := by
  have split := Nat.div_add_mod num den
  have small := Nat.mod_lt num positive
  rcases Nat.lt_trichotomy (num / den) nearest with less | same | more
  · -- the quotient is one less, and odd
    have near : nearest ≤ num / den + 1 := by
      by_contra far
      have : den * (num / den + 2) ≤ den * nearest := Nat.mul_le_mul_left den (by omega)
      rw [Nat.mul_add] at this
      omega
    have next : nearest = num / den + 1 := by omega
    subst next
    rw [Nat.mul_add] at notAbove
    have odd : (num / den) % 2 = 1 := by omega
    unfold roundHalfEven
    dsimp only
    rw [if_neg]
    simp
    omega
  · subst same
    unfold roundHalfEven
    dsimp only
    rw [if_pos]
    simp
    omega
  · have step : den * (nearest + 1) ≤ den * (num / den) := Nat.mul_le_mul_left den more
    rw [Nat.mul_add] at step
    omega

theorem roundHalfEven_le_succ : roundHalfEven num den ≤ num / den + 1 := by
  unfold roundHalfEven
  dsimp only
  split <;> omega

theorem div_le_roundHalfEven : num / den ≤ roundHalfEven num den := by
  unfold roundHalfEven
  dsimp only
  split <;> omega

theorem roundHalfEven_mul_right {scale : Nat} (positive : 0 < scale) :
    roundHalfEven (num * scale) (den * scale) = roundHalfEven num den := by
  have rest : 2 * (num % den * scale) = 2 * (num % den) * scale := (Nat.mul_assoc _ _ _).symm
  unfold roundHalfEven
  dsimp only
  rw [Nat.mul_div_mul_right num den positive, Nat.mul_mod_mul_right, rest]
  simp only [Nat.mul_lt_mul_right positive, Nat.mul_left_inj (Nat.ne_of_gt positive)]

end Nearest

/-! ## Digits after the units -/

/-- The binary digits of `num / den` as a shift keeps them: the whole part, the first digit after it
and whether any other digit after it is set. -/
def extended (num den : Nat) : ExtendedMantissa where
  mantissa := num / den
  roundBit := den ≤ 2 * (num % den)
  stickyBit := 2 * (num % den) ≠ 0 ∧ 2 * (num % den) ≠ den

theorem shiftRightOne_extended {num den : Nat} (positive : 0 < den) :
    (extended num den).shiftRightOne = extended num (den * 2) := by
  have small := Nat.mod_lt num positive
  have rest : num % (den * 2) = num % den + den * (num / den % 2) := Nat.mod_mul
  unfold extended ExtendedMantissa.shiftRightOne
  rw [rest, ← Nat.div_div_eq_div_mul, ExtendedMantissa.mk.injEq]
  refine ⟨rfl, Bool.eq_iff_iff.mpr ?_, Bool.eq_iff_iff.mpr ?_⟩
  all_goals
    rcases Nat.mod_two_eq_zero_or_one (num / den) with even | odd
    · simp [even]
      omega
    · simp [odd]
      omega

theorem shiftRight_extended {num den : Nat} (positive : 0 < den) (places : Nat) :
    extended num den >>> places = extended num (den * 2 ^ places) := by
  induction places with
  | zero =>
      rw [Nat.pow_zero, Nat.mul_one]
      rfl
  | succ places ih =>
      calc extended num den >>> (places + 1) = (extended num den >>> places).shiftRightOne := rfl
        _ = extended num (den * 2 ^ (places + 1)) := by
            rw [ih, shiftRightOne_extended (Nat.mul_pos positive (Nat.two_pow_pos places)),
              Nat.pow_succ, Nat.mul_assoc]

theorem ofMantissaAndAccuracy_fraction {num den : Nat} (positive : 0 < den) :
    ExtendedMantissa.ofMantissaAndAccuracy (num / den) (accuracyOfFraction (num % den) den) =
      extended num den := by
  have small := Nat.mod_lt num positive
  unfold accuracyOfFraction extended
  by_cases whole : num % den = 0
  · simp [whole, ExtendedMantissa.ofMantissaAndAccuracy]
    omega
  · rw [if_neg whole]
    rcases Nat.lt_trichotomy (2 * (num % den)) den with less | same | more
    · rw [Nat.compare_eq_lt.mpr less]
      simp [ExtendedMantissa.ofMantissaAndAccuracy]
      omega
    · rw [Nat.compare_eq_eq.mpr same]
      simp [ExtendedMantissa.ofMantissaAndAccuracy]
      omega
    · rw [Nat.compare_eq_gt.mpr more]
      simp [ExtendedMantissa.ofMantissaAndAccuracy]
      omega

theorem ofMantissaAndAccuracy_exact (m : Nat) :
    ExtendedMantissa.ofMantissaAndAccuracy m .exact = extended m 1 := by
  simp [ExtendedMantissa.ofMantissaAndAccuracy, extended, Nat.mod_one]

theorem roundedMantissa_extended (num den : Nat) :
    (extended num den).roundedMantissa = roundHalfEven num den := by
  unfold roundHalfEven extended
  rcases Nat.lt_trichotomy (2 * (num % den)) den with less | same | more
  · by_cases whole : num % den = 0
    · have positive : 0 < den := by omega
      simp [whole, positive, Nat.ne_of_gt positive, ExtendedMantissa.roundedMantissa,
        ExtendedMantissa.accuracy, Accuracy.roundToNearestEven]
    · simp [whole, less, Nat.not_le.mpr less, Nat.ne_of_lt less, ExtendedMantissa.roundedMantissa,
        ExtendedMantissa.accuracy, Accuracy.roundToNearestEven]
  · rcases Nat.mod_two_eq_zero_or_one (num / den) with even | odd
    · simp [same, even, ExtendedMantissa.roundedMantissa, ExtendedMantissa.accuracy,
        Accuracy.roundToNearestEven]
    · simp [same, odd, ExtendedMantissa.roundedMantissa, ExtendedMantissa.accuracy,
        Accuracy.roundToNearestEven]
  · have positive : num % den ≠ 0 := by omega
    simp [positive, Nat.le_of_lt more, Nat.lt_asymm more, Nat.ne_of_gt more,
      ExtendedMantissa.roundedMantissa, ExtendedMantissa.accuracy, Accuracy.roundToNearestEven]

/-! ## Rounding to a double -/

/-- The place of the last digit that a double keeps of a number. -/
def lastPlace (mantissa : Nat) (exponent : Int) : Int :=
  max (mantissa.log2 + 1 + exponent - 53) (-1074)

/-- The double `mantissa * 2 ^ exponent`, where the mantissa has at most 53 digits or is the next
power of two. -/
def settled (mantissa : Nat) (exponent : Int) : UnpackedFloat :=
  if zero : mantissa = 0 then .zero .positive
  else if mantissa = 2 ^ 53 then .finite .positive (2 ^ 52) (exponent + 1) (by decide)
  else .finite .positive mantissa exponent (Nat.pos_of_ne_zero zero)

theorem shiftToTargetExponent_eq (m : Nat) (e : Int) (accuracy : Accuracy) :
    shiftToTargetExponent .binary64 m e accuracy =
      (ExtendedMantissa.ofMantissaAndAccuracy m accuracy >>> (lastPlace m e - e).toNat,
        e + (lastPlace m e - e).toNat) := rfl

theorem log2_lt_of_lt_two_pow {m n : Nat} (positive : 0 < n) (bound : m < 2 ^ n) : m.log2 < n := by
  by_cases zero : m = 0
  · rw [zero, Nat.log2_zero]
    exact positive
  · exact (Nat.log2_lt zero).mpr bound

theorem shift_exact_of_lt {m : Nat} {e : Int} (bound : m < 2 ^ 53) (low : -1074 ≤ e) :
    shiftToTargetExponent .binary64 m e .exact = (extended m 1, e) := by
  have digits := log2_lt_of_lt_two_pow (by decide) bound
  have kept : (lastPlace m e - e).toNat = 0 := by
    unfold lastPlace
    omega
  rw [shiftToTargetExponent_eq, kept, ofMantissaAndAccuracy_exact, shiftRight_extended (by decide)]
  simp

theorem shift_exact_top {e : Int} (low : -1074 ≤ e) :
    shiftToTargetExponent .binary64 (2 ^ 53) e .exact = (extended (2 ^ 52) 1, e + 1) := by
  have one : (lastPlace (2 ^ 53) e - e).toNat = 1 := by
    rw [lastPlace, Nat.log2_two_pow]
    omega
  rw [shiftToTargetExponent_eq, one, ofMantissaAndAccuracy_exact, shiftRight_extended (by decide)]
  rfl

theorem roundHalfEven_le_top {num den k : Nat} {e : Int}
    (shift : (lastPlace (num / den) e - e).toNat = k) :
    roundHalfEven num (den * 2 ^ k) ≤ 2 ^ 53 := by
  have digits : (num / den).log2 + 1 ≤ 53 + k := by
    unfold lastPlace at shift
    omega
  have bound : num / den < 2 ^ 53 * 2 ^ k := by
    rw [← Nat.pow_add]
    exact Nat.lt_of_lt_of_le Nat.lt_log2_self (Nat.pow_le_pow_right (by decide) digits)
  have quotient : num / (den * 2 ^ k) < 2 ^ 53 := by
    rw [← Nat.div_div_eq_div_mul]
    exact Nat.div_lt_of_lt_mul (Nat.mul_comm _ _ ▸ bound)
  exact Nat.le_trans roundHalfEven_le_succ quotient

/-- No leading digit is missing after a number with enough digits is rounded. -/
theorem full_roundHalfEven {num den k : Nat} {e : Int} (enough : 2 ^ 52 ≤ num / den ∨ e = -1074)
    (dropped : (lastPlace (num / den) e - e).toNat = k) :
    2 ^ 52 ≤ roundHalfEven num (den * 2 ^ k) ∨ e + k = -1074 := by
  have long (many : 2 ^ 52 ≤ num / den) : 52 ≤ (num / den).log2 := (Nat.le_log2 (by omega)).mpr many
  unfold lastPlace at dropped
  by_cases last : e + k = -1074
  · exact .inr last
  · have kept : 52 + k ≤ (num / den).log2 := by omega
    have nonzero : num / den ≠ 0 := by
      intro zero
      rw [zero, Nat.log2_zero] at kept
      omega
    have digits : 2 ^ 52 * 2 ^ k ≤ num / den := by
      rw [← Nat.pow_add]
      exact (Nat.le_log2 nonzero).mp kept
    have quotient : 2 ^ 52 ≤ num / (den * 2 ^ k) := by
      rw [← Nat.div_div_eq_div_mul, Nat.le_div_iff_mul_le (Nat.two_pow_pos k)]
      exact digits
    exact .inl (Nat.le_trans quotient div_le_roundHalfEven)

/-- A quotient is rounded once, at the last place that a double keeps. -/
theorem roundWithAccuracy_eq {num den k : Nat} {e : Int} (positive : 0 < den)
    (shift : (lastPlace (num / den) e - e).toNat = k) :
    roundWithAccuracy .binary64 .positive (num / den) e (accuracyOfFraction (num % den) den) =
      settled (roundHalfEven num (den * 2 ^ k)) (e + k) := by
  have bound := roundHalfEven_le_top shift
  have low : -1074 ≤ e + k := by
    unfold lastPlace at shift
    omega
  unfold roundWithAccuracy
  rw [shiftToTargetExponent_eq, shift, ofMantissaAndAccuracy_fraction positive,
    shiftRight_extended positive]
  dsimp only
  rw [roundedMantissa_extended]
  generalize roundHalfEven num (den * 2 ^ k) = r at bound
  rcases Nat.lt_or_eq_of_le bound with less | top
  · have whole : (extended r 1).mantissa = r := Nat.div_one r
    rw [shift_exact_of_lt less low]
    unfold settled
    simp only [whole, if_neg (Nat.ne_of_lt less)]
  · subst top
    rw [shift_exact_top low]
    rfl

/-! ## Doubles in their one form -/

/-- The one form in which a positive double keeps its digits. -/
structure Canonical (mantissa : Nat) (exponent : Int) : Prop where
  digits : mantissa < 2 ^ 53
  least : -1074 ≤ exponent
  most : exponent ≤ 971
  full : 2 ^ 52 ≤ mantissa ∨ exponent = -1074

/-- Zero, or a positive number in its one form. -/
def Rounded (x : UnpackedFloat) : Prop :=
  x = .zero .positive ∨ ∃ m e, ∃ positive : 0 < m,
    x = .finite .positive m e positive ∧ Canonical m e

theorem unpack_subnormal {mantissa : BitVec 52} (positive : 0 < mantissa.toNat) :
    UnpackedFloat.unpack .binary64
      (packComponents .binary64 .positive (BitVec.ofNat 11 0) mantissa) =
      .finite .positive mantissa.toNat (-1074) positive := by
  have nonzero : mantissa ≠ BitVec.ofNat 52 0 := by
    intro zero
    rw [zero] at positive
    exact absurd positive (by decide)
  unfold UnpackedFloat.unpack
  simp only [unpackMantissa_packComponents, unpackExponent_packComponents,
    unpackSign_packComponents]
  rw [if_neg (by decide), if_pos trivial, dif_neg nonzero]
  rfl

theorem unpack_normal {exponent : BitVec 11} {mantissa : BitVec 52}
    (nonzero : exponent ≠ BitVec.ofNat 11 0) (finite : exponent ≠ -BitVec.ofNat 11 1) :
    UnpackedFloat.unpack .binary64 (packComponents .binary64 .positive exponent mantissa) =
      .finite .positive (2 ^ 52 + mantissa.toNat) (exponent.toNat - 1075) (by omega) := by
  have leading : (BitVec.ofNat 1 1 ++ mantissa).toNat = 2 ^ 52 + mantissa.toNat := by
    rw [BitVec.toNat_append, ← Nat.shiftLeft_add_eq_or_of_lt mantissa.isLt, Nat.shiftLeft_eq,
      BitVec.toNat_one (by decide), Nat.one_mul]
  unfold UnpackedFloat.unpack
  simp only [unpackMantissa_packComponents, unpackExponent_packComponents,
    unpackSign_packComponents]
  rw [if_neg finite, if_neg nonzero]
  simp only [leading]
  rfl

theorem pack_normal {m : Nat} {e : Int} (positive : 0 < m) (canonical : Canonical m e)
    (normal : 2 ^ 52 ≤ m) :
    UnpackedFloat.pack .binary64 (.finite .positive m e positive) =
      packComponents .binary64 .positive (BitVec.ofNat 11 (e + 1075).toNat)
        (BitVec.ofNat 52 m) := by
  have few := log2_lt_of_lt_two_pow (by decide) canonical.digits
  have many := (Nat.le_log2 (Nat.ne_of_gt positive)).mpr normal
  have most := canonical.most
  have biased : e + (1023 : Nat) + (52 : Nat) = e + 1075 := by omega
  have bias : Format.exponentBias .binary64 = 1023 := rfl
  have bits : Format.mantissaBits .binary64 = 53 := rfl
  unfold UnpackedFloat.pack
  dsimp only
  rw [bias, bits, biased, if_neg (by omega), if_pos (by omega)]

theorem pack_subnormal {m : Nat} (positive : 0 < m) (few : m < 2 ^ 52) :
    UnpackedFloat.pack .binary64 (.finite .positive m (-1074) positive) =
      packComponents .binary64 .positive (BitVec.ofNat 11 0) (BitVec.ofNat 52 m) := by
  have digits := log2_lt_of_lt_two_pow (by decide) few
  have bits : Format.mantissaBits .binary64 = 53 := rfl
  unfold UnpackedFloat.pack
  dsimp only
  rw [bits, if_neg (by decide), if_neg (by omega)]

theorem unpack_pack_normal {m : Nat} {e : Int} (positive : 0 < m) (canonical : Canonical m e)
    (normal : 2 ^ 52 ≤ m) :
    (Float.Model.pack (.finite .positive m e positive)).unpack =
      .finite .positive m e positive := by
  have digits := canonical.digits
  have least := canonical.least
  have most := canonical.most
  have field : (BitVec.ofNat 11 (e + 1075).toNat).toNat = (e + 1075).toNat := by
    rw [BitVec.toNat_ofNat, Nat.mod_eq_of_lt (by omega)]
  have nonzero : BitVec.ofNat 11 (e + 1075).toNat ≠ BitVec.ofNat 11 0 := by
    intro zero
    rw [zero, BitVec.toNat_zero] at field
    omega
  have finite : BitVec.ofNat 11 (e + 1075).toNat ≠ -BitVec.ofNat 11 1 := by
    intro ones
    rw [ones, show (-BitVec.ofNat 11 1).toNat = 2047 from rfl] at field
    omega
  change UnpackedFloat.unpack .binary64 (UnpackedFloat.pack .binary64 _) = _
  rw [pack_normal positive canonical normal, unpack_normal nonzero finite]
  congr 1
  · rw [BitVec.toNat_ofNat]
    omega
  · rw [field]
    omega

theorem unpack_pack_subnormal {m : Nat} (positive : 0 < m) (few : m < 2 ^ 52) :
    (Float.Model.pack (.finite .positive m (-1074) positive)).unpack =
      .finite .positive m (-1074) positive := by
  have field : (BitVec.ofNat 52 m).toNat = m := by rw [BitVec.toNat_ofNat, Nat.mod_eq_of_lt few]
  change UnpackedFloat.unpack .binary64 (UnpackedFloat.pack .binary64 _) = _
  rw [pack_subnormal positive few, unpack_subnormal (by omega)]
  simp only [field]

/-- A number in its one form is found again in the bits that it is packed into. -/
theorem Rounded.unpack_pack {x : UnpackedFloat} (rounded : Rounded x) :
    (Float.Model.pack x).unpack = x := by
  rcases rounded with zero | ⟨m, e, positive, same, canonical⟩
  · rw [zero]
    rfl
  · subst same
    by_cases normal : 2 ^ 52 ≤ m
    · exact unpack_pack_normal positive canonical normal
    · have least := canonical.full.resolve_left normal
      subst least
      exact unpack_pack_subnormal positive (Nat.not_le.mp normal)

theorem rounded_settled {r : Nat} {e : Int} (bound : r ≤ 2 ^ 53) (least : -1074 ≤ e)
    (most : e ≤ 970) (full : 2 ^ 52 ≤ r ∨ e = -1074) : Rounded (settled r e) := by
  unfold settled
  split
  · exact .inl rfl
  · split
    · exact .inr
        ⟨2 ^ 52, e + 1, by decide, rfl, by decide, by omega, by omega, .inl (Nat.le_refl _)⟩
    · exact .inr ⟨r, e, _, rfl, by omega, least, by omega, full⟩

/-! ## Quotients of counts -/

section Quotient

variable {part whole : Nat}

/-- How far a count is shifted so that its quotient has enough digits. -/
def quotientShift (part whole : Nat) : Nat :=
  min (whole.log2 - part.log2 + 53) 1074

theorem log2_le_log2 (filled : 0 < part) (within : part ≤ whole) : part.log2 ≤ whole.log2 :=
  (Nat.le_log2 (by omega)).mpr (Nat.le_trans (Nat.log2_self_le (Nat.ne_of_gt filled)) within)

theorem div_exactly (filled : 0 < part) (within : part ≤ whole) :
    UnpackedFloat.div .binary64 (exactly part) (exactly whole) =
      roundWithAccuracy .binary64 .positive (part * 2 ^ quotientShift part whole / whole)
        (-quotientShift part whole)
        (accuracyOfFraction (part * 2 ^ quotientShift part whole % whole) whole) := by
  have order := log2_le_log2 filled within
  have target :
      min 0 (Format.targetExponent .binary64 (totalExponent part 0 - totalExponent whole 0)) =
        -(quotientShift part whole : Int) := by
    change min 0 (max ((part.log2 + 1 + 0 - (whole.log2 + 1 + 0) : Int) - 53) (-1074)) = _
    unfold quotientShift
    omega
  have shift : (0 - -(quotientShift part whole : Int)).toNat = quotientShift part whole := by omega
  rw [exactly, exactly, dif_pos filled, dif_pos (Nat.lt_of_lt_of_le filled within)]
  unfold UnpackedFloat.div divCore
  dsimp only
  rw [Int.sub_zero, target, shift, Nat.shiftLeft_eq]
  rfl

theorem scaled_div_le (within : part ≤ whole) (shift : Nat) :
    part * 2 ^ shift / whole ≤ 2 ^ shift :=
  Nat.div_le_of_le_mul (Nat.mul_le_mul_right _ within)

theorem scaled_div_lt (less : part < whole) (shift : Nat) : part * 2 ^ shift / whole < 2 ^ shift :=
  Nat.div_lt_of_lt_mul (Nat.mul_lt_mul_of_pos_right less (Nat.two_pow_pos shift))

theorem two_pow_le_scaled_div (positive : 0 < whole) (half : whole ≤ 2 * part) (shift : Nat) :
    2 ^ shift ≤ part * 2 ^ (shift + 1) / whole := by
  rw [Nat.le_div_iff_mul_le positive]
  calc 2 ^ shift * whole ≤ 2 ^ shift * (2 * part) := Nat.mul_le_mul_left _ half
    _ = part * 2 ^ (shift + 1) := by ring

/-- The shift leaves as many digits as a double keeps, unless it reaches the last place of all. -/
theorem scaled_div_full (filled : 0 < part) (within : part ≤ whole) :
    2 ^ 52 ≤ part * 2 ^ quotientShift part whole / whole ∨ quotientShift part whole = 1074 := by
  rcases Nat.le_total (whole.log2 - part.log2 + 53) 1074 with few | many
  · refine .inl ?_
    have order := log2_le_log2 filled within
    have exponent : 52 + (whole.log2 + 1) = part.log2 + (whole.log2 - part.log2 + 53) := by omega
    rw [quotientShift, Nat.min_eq_left few,
      Nat.le_div_iff_mul_le (Nat.lt_of_lt_of_le filled within)]
    calc 2 ^ 52 * whole ≤ 2 ^ 52 * 2 ^ (whole.log2 + 1) :=
      Nat.mul_le_mul_left _ (Nat.le_of_lt Nat.lt_log2_self)
      _ = 2 ^ part.log2 * 2 ^ (whole.log2 - part.log2 + 53) := by
        rw [← Nat.pow_add, ← Nat.pow_add, exponent]
      _ ≤ part * 2 ^ (whole.log2 - part.log2 + 53) :=
          Nat.mul_le_mul_right _ (Nat.log2_self_le (Nat.ne_of_gt filled))
  · exact .inr (Nat.min_eq_right many)

/-- The place at which the quotient of two counts is rounded: `2 ^ (-place)` is the unit. -/
structure QuotientPlace (part whole place : Nat) : Prop where
  least : 52 ≤ place
  most : place ≤ 1074
  proper : part < whole → 53 ≤ place
  half : whole ≤ 2 * part → place ≤ 53
  digits : roundHalfEven (part * 2 ^ place) whole ≤ 2 ^ 53
  full : 2 ^ 52 ≤ roundHalfEven (part * 2 ^ place) whole ∨ place = 1074

section Digits

variable {shift : Nat} (large : 0 < shift)

theorem log2_scaled_div_le (within : part ≤ whole) : (part * 2 ^ shift / whole).log2 ≤ shift := by
  refine Nat.le_of_lt_succ (log2_lt_of_lt_two_pow (Nat.succ_pos shift) ?_)
  exact Nat.lt_of_le_of_lt (scaled_div_le within shift) (Nat.pow_lt_pow_succ (by decide))

include large

theorem log2_scaled_div_lt (less : part < whole) : (part * 2 ^ shift / whole).log2 < shift :=
  log2_lt_of_lt_two_pow large (scaled_div_lt less shift)

theorem le_log2_scaled_div (positive : 0 < whole) (half : whole ≤ 2 * part) :
    shift - 1 ≤ (part * 2 ^ shift / whole).log2 := by
  have bound := two_pow_le_scaled_div positive half (shift - 1)
  rw [Nat.sub_add_cancel large] at bound
  exact (Nat.le_log2 (Nat.ne_of_gt (Nat.lt_of_lt_of_le (Nat.two_pow_pos _) bound))).mpr bound

end Digits

theorem quotientPlace_of_shift {shift k : Nat} (filled : 0 < part) (within : part ≤ whole)
    (least : 53 ≤ shift) (most : shift ≤ 1074)
    (full : 2 ^ 52 ≤ part * 2 ^ shift / whole ∨ shift = 1074)
    (dropped : (lastPlace (part * 2 ^ shift / whole) (-shift) - -shift).toNat = k) :
    QuotientPlace part whole (shift - k) ∧ k ≤ shift ∧
      roundHalfEven (part * 2 ^ shift) (whole * 2 ^ k) =
        roundHalfEven (part * 2 ^ (shift - k)) whole := by
  have positive : 0 < shift := by omega
  have digits := roundHalfEven_le_top dropped
  have kept := full_roundHalfEven (full.imp_right fun last => by omega) dropped
  have atMost : (part * 2 ^ shift / whole).log2 ≤ shift := log2_scaled_div_le within
  have long (many : 2 ^ 52 ≤ part * 2 ^ shift / whole) : 52 ≤ (part * 2 ^ shift / whole).log2 :=
    (Nat.le_log2 (by omega)).mpr many
  unfold lastPlace at dropped
  have fits : k ≤ shift := by omega
  have same : roundHalfEven (part * 2 ^ shift) (whole * 2 ^ k) =
      roundHalfEven (part * 2 ^ (shift - k)) whole := by
    calc roundHalfEven (part * 2 ^ shift) (whole * 2 ^ k)
      _ = roundHalfEven (part * 2 ^ (shift - k) * 2 ^ k) (whole * 2 ^ k) := by
          rw [Nat.mul_assoc, ← Nat.pow_add, Nat.sub_add_cancel fits]
      _ = roundHalfEven (part * 2 ^ (shift - k)) whole :=
        roundHalfEven_mul_right (Nat.two_pow_pos k)
  rw [same] at digits kept
  refine ⟨⟨by omega, by omega, fun less => ?_, fun half => ?_, digits, ?_⟩, fits, same⟩
  · have := log2_scaled_div_lt positive less
    omega
  · have := le_log2_scaled_div positive (Nat.lt_of_lt_of_le filled within) half
    omega
  · exact kept.imp_right fun last => by omega

theorem div_exactly_settled (filled : 0 < part) (within : part ≤ whole) :
    ∃ place, QuotientPlace part whole place ∧
      UnpackedFloat.div .binary64 (exactly part) (exactly whole) =
        settled (roundHalfEven (part * 2 ^ place) whole) (-place) := by
  obtain ⟨k, dropped⟩ :
      ∃ k, (lastPlace (part * 2 ^ quotientShift part whole / whole) (-quotientShift part whole) -
        -quotientShift part whole).toNat = k := ⟨_, rfl⟩
  have least : 53 ≤ quotientShift part whole := by
    unfold quotientShift
    omega
  obtain ⟨placed, fits, same⟩ := quotientPlace_of_shift filled within least (Nat.min_le_right _ _)
    (scaled_div_full filled within) dropped
  refine ⟨quotientShift part whole - k, placed, ?_⟩
  have exponent :
      -(quotientShift part whole : Int) + k = -(quotientShift part whole - k : Nat) := by omega
  rw [div_exactly filled within, roundWithAccuracy_eq (Nat.lt_of_lt_of_le filled within) dropped,
    same, exponent]

theorem QuotientPlace.roundHalfEven_lt {place : Nat} (placed : QuotientPlace part whole place)
    (within : part ≤ whole) (short : whole < 2 ^ 54 * (whole - part)) :
    roundHalfEven (part * 2 ^ place) whole < 2 ^ place := by
  have positive : 0 < whole := by omega
  have least := placed.proper (by omega)
  refine Nat.not_le.mp fun reached => ?_
  have close :
      2 * (whole * roundHalfEven (part * 2 ^ place) whole) ≤ 2 * (part * 2 ^ place) + whole :=
    roundHalfEven_le positive
  have scaled : 2 ^ 54 * (whole - part) ≤ 2 * 2 ^ place * (whole - part) :=
    Nat.mul_le_mul_right _
      (Nat.pow_succ' ▸ Nat.pow_le_pow_right (by decide) (Nat.succ_le_succ least))
  have whole' : whole * 2 ^ place ≤ whole * roundHalfEven (part * 2 ^ place) whole :=
    Nat.mul_le_mul_left _ reached
  have difference :
      2 * 2 ^ place * (whole - part) = 2 * (whole * 2 ^ place) - 2 * (part * 2 ^ place) := by
    rw [Nat.mul_sub]
    ring_nf
  omega

theorem QuotientPlace.settled_one {place : Nat} (placed : QuotientPlace part whole place)
    (filled : 0 < part) (within : part ≤ whole) (near : 2 ^ 54 * (whole - part) ≤ whole) :
    settled (roundHalfEven (part * 2 ^ place) whole) (-place) =
      .finite .positive (2 ^ 52) (-52) (by decide) := by
  have positive : 0 < whole := Nat.lt_of_lt_of_le filled within
  have least := placed.least
  have most := placed.half (by omega)
  have either : place = 52 ∨ place = 53 := by omega
  rcases either with same | same
  · subst same
    have one : roundHalfEven (part * 2 ^ 52) whole = 2 ^ 52 :=
      roundHalfEven_eq positive (by decide) (by omega) (by omega)
    rw [one]
    rfl
  · subst same
    have one : roundHalfEven (part * 2 ^ 53) whole = 2 ^ 53 :=
      roundHalfEven_eq positive (by decide) (by omega) (by omega)
    rw [one]
    rfl

end Quotient

/-! ## Percentages -/

def hundred : UnpackedFloat :=
  .finite .positive (100 * 2 ^ 46) (-46) (by decide)

theorem unpack_hundred : (100.0 : Float).toModel.unpack = hundred := rfl

theorem mul_one_hundred :
    UnpackedFloat.mul .binary64 (.finite .positive (2 ^ 52) (-52) (by decide)) hundred = hundred :=
  rfl

theorem mul_hundred_settled {m p : Nat} (positive : 0 < m) (digits : m < 2 ^ 53) :
    ∃ k : Nat, Rounded (settled (roundHalfEven (m * (100 * 2 ^ 46)) (2 ^ k)) (-p + -46 + k)) ∧
      UnpackedFloat.mul .binary64 (.finite .positive m (-p) positive) hundred =
        settled (roundHalfEven (m * (100 * 2 ^ 46)) (2 ^ k)) (-p + -46 + k) := by
  obtain ⟨k, dropped⟩ :
      ∃ k, (lastPlace (m * (100 * 2 ^ 46) / 1) (-p + -46) - (-p + -46)).toNat = k := ⟨_, rfl⟩
  have enough : 2 ^ 52 ≤ m * (100 * 2 ^ 46) / 1 := by omega
  have few : (m * (100 * 2 ^ 46) / 1).log2 < 106 := log2_lt_of_lt_two_pow (by decide) (by omega)
  have top := roundHalfEven_le_top dropped
  have full := full_roundHalfEven (.inl enough) dropped
  have rounding := roundWithAccuracy_eq (by decide) dropped
  rw [Nat.one_mul] at top full rounding
  refine ⟨k, ?_, ?_⟩
  · unfold lastPlace at dropped
    exact rounded_settled top (by omega) (by omega) full
  · rw [← rounding, Nat.div_one, Nat.mod_one]
    rfl

theorem settled_eq_hundred {r : Nat} {e : Int} (same : settled r e = hundred) :
    r = 100 * 2 ^ 46 ∧ e = -46 := by
  unfold settled hundred at same
  split at same
  · exact absurd same (by simp)
  · split at same
    · exact absurd same (by simp)
    · simpa using same

/-- One hundred times a number below one is not rounded up to one hundred. -/
theorem mul_hundred_ne {m p : Nat} (positive : 0 < m) (digits : m < 2 ^ 53) (small : m < 2 ^ p) :
    UnpackedFloat.mul .binary64 (.finite .positive m (-p) positive) hundred ≠ hundred := by
  obtain ⟨k, _, product⟩ := mul_hundred_settled (p := p) positive digits
  rw [product]
  intro same
  obtain ⟨reached, exponent⟩ := settled_eq_hundred same
  have places : k = p := by omega
  subst places
  have close :
      2 * (2 ^ k * roundHalfEven (m * (100 * 2 ^ 46)) (2 ^ k)) ≤ 2 * (m * (100 * 2 ^ 46)) + 2 ^ k :=
    roundHalfEven_le (Nat.two_pow_pos k)
  rw [reached] at close
  -- the last digit of the product stands for more than the difference to one hundred
  have wide : 2 ^ 53 < 2 ^ k := by omega
  have bits : 2 ^ 54 ≤ 2 ^ k :=
    Nat.pow_le_pow_right (by decide) ((Nat.pow_lt_pow_iff_right (by decide)).mp wide)
  omega

/-- The quotient of two counts, the first no more than the second: one, or less. -/
inductive Share (part whole : Nat) : UnpackedFloat → Prop where
  | one (near : 2 ^ 54 * (whole - part) ≤ whole) :
      Share part whole (.finite .positive (2 ^ 52) (-52) (by decide))
  | zero (short : whole < 2 ^ 54 * (whole - part)) : Share part whole (.zero .positive)
  | below (short : whole < 2 ^ 54 * (whole - part)) {m p : Nat} (positive : 0 < m)
    (digits : m < 2 ^ 53)
      (small : m < 2 ^ p) : Share part whole (.finite .positive m (-p) positive)

theorem share_settled {part whole r place : Nat} (short : whole < 2 ^ 54 * (whole - part))
    (top : r ≤ 2 ^ 53) (small : r < 2 ^ place) : Share part whole (settled r (-place)) := by
  unfold settled
  split
  · exact .zero short
  · split
    · rename_i full
      rw [full] at small
      have place' : 53 < place := (Nat.pow_lt_pow_iff_right (by decide)).mp small
      have exponent : -(place : Int) + 1 = -(place - 1 : Nat) := by omega
      rw [exponent]
      exact .below short (by decide) (by decide) (Nat.pow_lt_pow_right (by decide) (by omega))
    · exact .below short (by omega) (by omega) small

theorem share_div {part whole : Nat} (positive : 0 < whole) (within : part ≤ whole) :
    Share part whole (UnpackedFloat.div .binary64 (exactly part) (exactly whole)) ∧
      Rounded (UnpackedFloat.div .binary64 (exactly part) (exactly whole)) := by
  by_cases empty : part = 0
  · subst empty
    have zero : UnpackedFloat.div .binary64 (exactly 0) (exactly whole) = .zero .positive := by
      rw [exactly, exactly, dif_neg (by decide), dif_pos positive]
      rfl
    rw [zero]
    exact ⟨.zero (by omega), .inl rfl⟩
  · obtain ⟨place, placed, quotient⟩ := div_exactly_settled (Nat.pos_of_ne_zero empty) within
    have least := placed.least
    have most := placed.most
    rw [quotient]
    refine ⟨?_, rounded_settled placed.digits (by omega) (by omega)
      (placed.full.imp_right fun last => by omega)⟩
    rcases Nat.lt_or_ge whole (2 ^ 54 * (whole - part)) with short | near
    · exact share_settled short placed.digits (placed.roundHalfEven_lt within short)
    · rw [placed.settled_one (Nat.pos_of_ne_zero empty) within near]
      exact .one near

theorem Share.mul_hundred {part whole : Nat} {x : UnpackedFloat} (share : Share part whole x) :
    Rounded (UnpackedFloat.mul .binary64 x hundred) ∧
      (UnpackedFloat.mul .binary64 x hundred = hundred ↔ 2 ^ 54 * (whole - part) ≤ whole) := by
  cases share with
  | one near =>
      rw [mul_one_hundred]
      exact ⟨.inr ⟨_, _, by decide, rfl, by decide, by decide, by decide, by decide⟩,
        iff_of_true rfl near⟩
  | zero short =>
    exact ⟨.inl rfl, iff_of_false (by simp [UnpackedFloat.mul, hundred]) (Nat.not_le.mpr short)⟩
  | @below short m p positive digits small =>
      obtain ⟨k, rounded, product⟩ := mul_hundred_settled (p := p) positive digits
      exact ⟨product ▸ rounded,
        iff_of_false (mul_hundred_ne positive digits small) (Nat.not_le.mpr short)⟩

theorem percent_eq {part whole : Nat}
    (rounded : Rounded (UnpackedFloat.div .binary64 (exactly part) (exactly whole))) :
    percent part whole = .ofModel (.pack
      (UnpackedFloat.mul .binary64 (UnpackedFloat.div .binary64 (exactly part) (exactly whole))
        hundred)) := by
  change Float.ofModel (.pack
    (UnpackedFloat.mul .binary64 (Float.Model.unpack (.pack _)) (100.0 : Float).toModel.unpack)) = _
  rw [rounded.unpack_pack, unpack_hundred]

theorem Rounded.pack_eq_hundred_iff {x : UnpackedFloat} (rounded : Rounded x) :
    Float.ofModel (.pack x) = 100.0 ↔ x = hundred := by
  constructor
  · intro same
    rw [← rounded.unpack_pack, ← unpack_hundred, ← same]
  · intro same
    rw [same]
    rfl

theorem Rounded.pack_beq_hundred_iff {x : UnpackedFloat} (rounded : Rounded x) :
    (Float.ofModel (.pack x) == 100.0) = true ↔ x = hundred := by
  change UnpackedFloat.beq (Float.Model.pack x).unpack (100.0 : Float).toModel.unpack = true ↔ _
  rw [rounded.unpack_pack, unpack_hundred]
  rcases rounded with zero | ⟨m, e, positive, same, canonical⟩
  · subst zero
    exact iff_of_false (by decide) (by simp [hundred])
  · subst same
    simp [UnpackedFloat.beq, UnpackedFloat.compare, hundred, Ordering.then_eq_eq, and_comm]

/-- A share is one hundred percent exactly if at most one in `2 ^ 54` is missing. -/
theorem percent_eq_hundred_iff {part whole : Nat} (positive : 0 < whole) (within : part ≤ whole) :
    percent part whole = 100.0 ↔ 2 ^ 54 * (whole - part) ≤ whole := by
  obtain ⟨share, rounded⟩ := share_div positive within
  obtain ⟨product, reached⟩ := share.mul_hundred
  rw [percent_eq rounded, product.pack_eq_hundred_iff, reached]

theorem percent_beq_hundred_iff {part whole : Nat} (positive : 0 < whole) (within : part ≤ whole) :
    (percent part whole == 100.0) = true ↔ 2 ^ 54 * (whole - part) ≤ whole := by
  obtain ⟨share, rounded⟩ := share_div positive within
  obtain ⟨product, reached⟩ := share.mul_hundred
  rw [percent_eq rounded, product.pack_beq_hundred_iff, reached]

end Zkvm.Text
