/-!
# Numerals

A whole number is written out in decimal digits only if it does not have too many of them.
-/
set_option autoImplicit false

namespace Zkvm.Text

def mostDigits : Nat := 4300

/-- The number is short enough to be written out; its sign does not count. -/
def Writable (n : Int) : Prop :=
  (Nat.toDigits 10 n.natAbs).length ≤ mostDigits

instance (n : Int) : Decidable (Writable n) :=
  inferInstanceAs (Decidable (_ ≤ _))

/-- The least number that has too many digits. -/
def tooLong : Nat := Nat.pow 10 mostDigits

theorem length_toDigits_le_iff {count : Nat} (some : 0 < count) (n : Nat) :
    (Nat.toDigits 10 n).length ≤ count ↔ n < Nat.pow 10 count :=
  Nat.length_toDigits_le_iff (by decide) some

theorem writable_iff {n : Int} : Writable n ↔ n.natAbs < tooLong := by
  unfold Writable tooLong
  exact length_toDigits_le_iff (by decide) n.natAbs

theorem lt_tooLong {n : Nat} (small : n < 10000000000) : n < tooLong := by
  have few := (length_toDigits_le_iff (by decide : 0 < 10) n).mpr small
  unfold tooLong
  exact (length_toDigits_le_iff (by decide) n).mp (Nat.le_trans few (by decide))

theorem not_writable_tooLong : ¬ Writable tooLong := by
  rw [writable_iff, Int.natAbs_natCast]
  exact Nat.lt_irrefl _

def tooManyDigits : String :=
  s!"Exceeds the limit ({mostDigits} digits) for integer string conversion; " ++
    "use sys.set_int_max_str_digits() to increase the limit"

end Zkvm.Text
