import Mathlib.Algebra.BigOperators.Ring.List
import Mathlib.Data.Int.ModEq
import Mathlib.Tactic.IntervalCases
import Mathlib.Tactic.Ring
import Zkvm.Testing.Case

/-!
# Integers in test cases

A test case gives an integer bit by bit, the lowest first, in at least eight lines.  The lines of a
natural number spell it in binary.  Those of a negative number spell its absolute value, but the
line after the highest bit gives a letter in place of a bit, so that together they spell no number.
-/
set_option autoImplicit false

namespace Zkvm.Testing

def numberOf (bits : List Bool) : Nat :=
  (bits.zipIdx.map fun entry => entry.1.toNat * 2 ^ entry.2).sum

def bitLine (name : String) (place : Nat) (bit : Bool) : String :=
  s!"{name}_{place} = {bit.toNat}"

def bitLines (name : String) (bits : List Bool) : List String :=
  bits.zipIdx.map fun entry => bitLine name entry.2 entry.1

/-- The lines give an integer in binary: a bit for each of at least eight places, and together the
integer modulo the power of two that has as many zeros, or just the integer if it is not
negative. -/
def Spells (name : String) (v : Int) (lines : List String) : Prop :=
  ∃ bits : List Bool, 8 ≤ bits.length ∧ lines = bitLines name bits ∧
    (numberOf bits : Int) ≡ v [ZMOD 2 ^ bits.length] ∧ (0 ≤ v → (numberOf bits : Int) = v)

def signLine (name : String) (place : Nat) (sign : Char) : String :=
  s!"{name}_{place} = {sign}"

/-- The lines give the bits of the absolute value up to the highest, then a letter, then zeros up to
eight lines. -/
def SpellsMarked (name : String) (v : Int) (lines : List String) : Prop :=
  ∃ bits : List Bool, numberOf bits = v.natAbs ∧ bits.getLast? = some true ∧
    lines = bitLines name bits ++ signLine name bits.length 'b' ::
      (List.range' (bits.length + 1) (7 - bits.length)).map fun place => bitLine name place false

/-! ## Numbers of bits -/

theorem numberOf_cons (bit : Bool) (rest : List Bool) :
    numberOf (bit :: rest) = bit.toNat + 2 * numberOf rest := by
  have shift : (rest.zipIdx 1).map (fun entry => entry.1.toNat * 2 ^ entry.2) =
      rest.zipIdx.map fun entry => 2 * (entry.1.toNat * 2 ^ entry.2) := by
    rw [List.zipIdx_succ, List.map_map]
    refine List.map_congr_left fun entry _ => ?_
    simp only [Function.comp_apply, pow_succ]
    ring
  rw [numberOf, List.zipIdx_cons, List.map_cons, List.sum_cons, shift, List.sum_map_mul_left,
    pow_zero, mul_one]
  rfl

theorem numberOf_append_false (bits : List Bool) (count : Nat) :
    numberOf (bits ++ List.replicate count false) = numberOf bits := by
  induction bits with
  | nil =>
      induction count with
      | zero => rfl
      | succ count ih =>
          rw [List.nil_append, List.replicate_succ, numberOf_cons]
          rw [List.nil_append] at ih
          rw [ih]
          rfl
  | cons bit rest ih => rw [List.cons_append, numberOf_cons, ih, numberOf_cons]

theorem numberOf_lowBits (n : Nat) : numberOf (lowBits n) = n := by
  induction n using lowBits.induct with
  | case1 n small =>
      rw [lowBits, if_pos small]
      interval_cases n <;> rfl
  | case2 n large ih =>
      have parity : (n % 2 == 1).toNat = n % 2 := by
        rcases Nat.mod_two_eq_zero_or_one n with even | odd
        · rw [even]; rfl
        · rw [odd]; rfl
      rw [lowBits, if_neg large, numberOf_cons, ih, parity]
      omega

theorem getLast?_lowBits {n : Nat} (positive : 0 < n) : (lowBits n).getLast? = some true := by
  induction n using lowBits.induct with
  | case1 n small =>
      obtain rfl : n = 1 := by omega
      rw [lowBits]
      rfl
  | case2 n large ih =>
      have later := ih (by omega)
      rw [lowBits, if_neg large, List.getLast?_cons, later]
      rfl

/-! ## Lines -/

theorem signLine_digit (name : String) (place : Nat) (bit : Bool) :
    signLine name place (digit bit) = bitLine name place bit := by
  cases bit with
  | false => rfl
  | true => rfl

theorem signLine_inj {name : String} {place : Nat} {sign other : Char}
    (same : signLine name place sign = signLine name place other) : sign = other := by
  have last (c : Char) : (signLine name place c).toList.getLast? = some c := by
    change (_ ++ String.singleton c).toList.getLast? = _
    rw [String.toList_append, String.toList_singleton, List.getLast?_concat]
  have signs := congrArg (fun line : String => line.toList.getLast?) same
  rw [last, last] at signs
  exact Option.some.inj signs

def signLines (name : String) (start : Nat) (signs : List Char) : List String :=
  (signs.zipIdx start).map fun entry => signLine name entry.2 entry.1

theorem constraints_int (name : String) (v : Int) :
    valueConstraints name (.int v) = signLines name 0 (digits v) :=
  rfl

theorem signLines_append (name : String) (start : Nat) (front back : List Char) :
    signLines name start (front ++ back) =
      signLines name start front ++ signLines name (start + front.length) back := by
  rw [signLines, List.zipIdx_append, List.map_append]
  rfl

theorem signLines_cons (name : String) (start : Nat) (sign : Char) (rest : List Char) :
    signLines name start (sign :: rest) =
      signLine name start sign :: signLines name (start + 1) rest :=
  rfl

theorem signLines_digits (name : String) (bits : List Bool) :
    signLines name 0 (bits.map digit) = bitLines name bits := by
  rw [signLines, bitLines, List.zipIdx_map, List.map_map]
  exact List.map_congr_left fun entry _ => signLine_digit name entry.2 entry.1

theorem signLines_zeros (name : String) (start count : Nat) :
    signLines name start (List.replicate count '0') =
      (List.range' start count).map fun place => bitLine name place false := by
  induction count generalizing start with
  | zero => rfl
  | succ count ih =>
      rw [List.replicate_succ, signLines_cons, ih, List.range'_succ, List.map_cons,
        ← signLine_digit]
      rfl

/-! ## Digits of integers -/

theorem digits_of_nonneg {v : Int} (natural : 0 ≤ v) :
    digits v =
      (lowBits v.natAbs ++ List.replicate (8 - (lowBits v.natAbs).length) false).map digit := by
  rw [digits, if_neg (by omega), List.append_nil, padEight, List.length_map, List.map_append,
    List.map_replicate]
  rfl

theorem digits_of_neg {v : Int} (negative : v < 0) :
    digits v = (lowBits v.natAbs).map digit ++ 'b' ::
      List.replicate (7 - (lowBits v.natAbs).length) '0' := by
  have zeros : 8 - ((lowBits v.natAbs).length + ['b'].length) = 7 - (lowBits v.natAbs).length :=
    Nat.add_sub_add_right 7 1 _
  rw [digits, if_pos negative, padEight, List.append_assoc, List.length_append,
    List.length_map, zeros]
  rfl

theorem spells_of_nonneg (name : String) {v : Int} (natural : 0 ≤ v) :
    Spells name v (valueConstraints name (.int v)) := by
  have number :
      (numberOf (lowBits v.natAbs ++ List.replicate (8 - (lowBits v.natAbs).length) false) : Int) =
        v := by
    rw [numberOf_append_false, numberOf_lowBits]
    omega
  refine ⟨_, ?_, ?_, (Int.ModEq.refl v).trans ?_ |>.symm, fun _ => number⟩
  · rw [List.length_append, List.length_replicate]
    omega
  · rw [constraints_int, digits_of_nonneg natural, signLines_digits]
  · rw [number]

theorem spellsMarked_of_neg (name : String) {v : Int} (negative : v < 0) :
    SpellsMarked name v (valueConstraints name (.int v)) := by
  refine ⟨lowBits v.natAbs, numberOf_lowBits _, getLast?_lowBits (by omega), ?_⟩
  rw [constraints_int, digits_of_neg negative, signLines_append, signLines_digits, List.length_map,
    Nat.zero_add, signLines_cons, signLines_zeros]

/-- Lines with a letter are not the lines of any bits. -/
theorem SpellsMarked.not_spells {name : String} {v w : Int} {lines : List String}
    (marked : SpellsMarked name v lines) :
    ¬ Spells name w lines := by
  rintro ⟨bits, _, spelled, _⟩
  obtain ⟨low, _, _, shape⟩ := marked
  have letter : lines[low.length]? = some (signLine name low.length 'b') := by
    have length : (bitLines name low).length = low.length := by
      rw [bitLines, List.length_map, List.length_zipIdx]
    rw [shape, List.getElem?_append_right length.le, length, Nat.sub_self]
    rfl
  rw [spelled, bitLines, List.getElem?_map, List.getElem?_zipIdx, Option.map_map,
    Option.map_eq_some_iff] at letter
  obtain ⟨bit, _, same⟩ := letter
  rw [Function.comp_apply, Nat.zero_add, ← signLine_digit] at same
  have sign := signLine_inj same
  cases bit with
  | false => cases sign
  | true => cases sign

/-- A test case says its inputs and then its expected outputs, which have names of their own, and
spells an integer in binary exactly if it is not negative.  A negative one is spelled by its
absolute value with a letter after the highest bit. -/
theorem integers_spelled (test : Case) :
    (test.constraints = (test.inputs.flatMap fun entry => valueConstraints entry.1 entry.2) ++
      test.expected.flatMap fun entry => valueConstraints (entry.1 ++ "_out") entry.2) ∧
    ∀ (name : String) (v : Int), (Spells name v (valueConstraints name (.int v)) ↔ 0 ≤ v) ∧
      (v < 0 → SpellsMarked name v (valueConstraints name (.int v))) := by
  refine ⟨rfl, fun name v => ⟨⟨fun spells => ?_, spells_of_nonneg name⟩, spellsMarked_of_neg name⟩⟩
  by_contra negative
  exact (spellsMarked_of_neg name (not_le.mp negative)).not_spells spells

/-- A test case with the input minus one. -/
def minusOne : Case :=
  { name := "t", description := "", instruction := "", inputs := [("x", .int (-1))],
    expected := [] }

theorem minusOne_not_spelled :
    minusOne.constraints =
      ["x_0 = 1", "x_1 = b", "x_2 = 0", "x_3 = 0", "x_4 = 0", "x_5 = 0", "x_6 = 0", "x_7 = 0"] ∧
      ¬ Spells "x" (-1) minusOne.constraints := by
  have lines : minusOne.constraints = valueConstraints "x" (.int (-1)) :=
    (List.append_nil _).trans (List.append_nil _)
  rw [lines]
  refine ⟨?_, (spellsMarked_of_neg "x" (by decide)).not_spells⟩
  rw [constraints_int, digits_of_neg (by decide),
    show lowBits (Int.natAbs (-1)) = [true] by rw [lowBits]; rfl]
  decide

end Zkvm.Testing
