import Zkvm.Proofs.Component.Advance
import Zkvm.Proofs.Contract.Nibbles

/-!
# One more and one less

A word plus one differs from the word in the places that a carry comes into, and a word minus one in
those that a borrow comes into: all places up to the first zero, or up to the first one.  Nibble by
nibble, a word is stepped where something comes in from the nibble below.
-/
set_option autoImplicit false

namespace Zkvm.Component

open Contract.Instruction (nibbleOf getLsbD_nibbleOf)

inductive StackMove where
  | push
  | pop

namespace StackMove

def step {width : Nat} : StackMove → BitVec width → BitVec width
  | .push, x => x + 1
  | .pop, x => x - 1

/-- A carry goes on where a bit is one, a borrow where it is zero. -/
def falling : StackMove → Bool
  | .push => false
  | .pop => true

end StackMove

/-- What comes into a place, if a carry or a borrow comes into the first one. -/
def passed (falling : Bool) (x : Nat → Bool) (first : Bool) (i : Nat) : Bool :=
  first && (List.range i).all fun j => x j ^^ falling

section Passed
variable (falling : Bool) (x : Nat → Bool) (first : Bool)

theorem passed_zero : passed falling x first 0 = first :=
  Bool.and_true _

theorem passed_succ (i : Nat) :
    passed falling x first (i + 1) = (passed falling x first i && (x i ^^ falling)) := by
  rw [passed, passed, List.range_succ, List.all_append, List.all_cons, List.all_nil, Bool.and_true,
    Bool.and_assoc]

theorem passed_false (i : Nat) : passed falling x false i = false :=
  Bool.false_and _

/-- What comes into an upper place, from what comes into the first of the upper places. -/
theorem passed_add (m i : Nat) :
    passed falling x first (m + i) =
      passed falling (fun j => x (m + j)) (passed falling x first m) i := by
  induction i with
  | zero => rw [passed_zero, Nat.add_zero]
  | succ i ih => rw [← Nat.add_assoc, passed_succ, passed_succ, ih]

end Passed

theorem passed_congr {falling first : Bool} {x y : Nat → Bool} {i : Nat}
    (same : ∀ j < i, x j = y j) :
    passed falling x first i = passed falling y first i := by
  induction i with
  | zero => rw [passed_zero, passed_zero]
  | succ i ih =>
    rw [passed_succ, passed_succ, ih fun j small => same j (by omega), same i (by omega)]

section Words
variable {width : Nat} (x : BitVec width)

theorem carry_zero_eq (i : Nat) :
    BitVec.carry i x (BitVec.ofNat width 0) true = passed false x.getLsbD true i := by
  induction i with
  | zero => rw [BitVec.carry_zero, passed_zero]
  | succ i ih =>
      rw [Formula.carry_succ_eq, passed_succ, ih, Formula.handedOn, BitVec.getLsbD_zero,
        Bool.and_false, Bool.false_or, Bool.xor_false, Bool.and_comm]

theorem addWithCarry_one : Formula.addWithCarry x (BitVec.ofNat width 0) true = x + 1 := by
  have one : (BitVec.ofBool true).setWidth width = 1 := by
    apply BitVec.eq_of_toNat_eq
    simp
  rw [Formula.addWithCarry, one, BitVec.add_zero]

theorem sub_one_eq : x - 1 = ~~~(~~~x + 1) := by
  rw [BitVec.not_eq_neg_add, BitVec.not_eq_neg_add]
  ring

/-- A bit of a stepped word changes where something comes into its place. -/
theorem getLsbD_step (move : StackMove) {i : Nat} (inside : i < width) :
    (move.step x).getLsbD i = (x.getLsbD i ^^ passed move.falling x.getLsbD true i) := by
  have up (y : BitVec width) :
      (y + 1).getLsbD i = (y.getLsbD i ^^ passed false y.getLsbD true i) := by
    rw [← addWithCarry_one, Formula.getLsbD_addWithCarry inside, carry_zero_eq, BitVec.getLsbD_zero,
      Bool.xor_false]
  cases move with
  | push => exact up x
  | pop =>
      have flipped : passed false (~~~x).getLsbD true i = passed true x.getLsbD true i := by
        have bits : ∀ j < i, (~~~x).getLsbD j = !x.getLsbD j := by
          intro j small
          rw [BitVec.getLsbD_not, decide_eq_true (by omega), Bool.true_and]
        rw [passed_congr bits]
        simp only [passed, Bool.xor_false, Bool.xor_true]
      rw [StackMove.step, sub_one_eq, BitVec.getLsbD_not, up, BitVec.getLsbD_not, flipped,
        StackMove.falling, decide_eq_true inside, Bool.true_and, Bool.true_and, Bool.not_xor,
        Bool.not_not]

end Words

/-- A nibble is stepped if something comes into it. -/
def stepIf (move : StackMove) (comes : Bool) (x : BitVec 4) : BitVec 4 :=
  if comes then move.step x else x

theorem getLsbD_stepIf (move : StackMove) (comes : Bool) (x : BitVec 4) {i : Nat} (small : i < 4) :
    (stepIf move comes x).getLsbD i = (x.getLsbD i ^^ passed move.falling x.getLsbD comes i) := by
  cases comes with
  | true => exact getLsbD_step x move small
  | false => rw [passed_false, Bool.xor_false, stepIf, if_neg Bool.false_ne_true]

/-- What comes into a nibble when a word is stepped. -/
def comesInto (move : StackMove) (x : BitVec 32) (n : Nat) : Bool :=
  passed move.falling x.getLsbD true (4 * n)

theorem comesInto_zero (move : StackMove) (x : BitVec 32) : comesInto move x 0 = true :=
  passed_zero ..

theorem comesInto_succ (move : StackMove) (x : BitVec 32) (n : Nat) :
    comesInto move x (n + 1) =
      passed move.falling (fun i => x.getLsbD (4 * n + i)) (comesInto move x n) 4 :=
  passed_add move.falling x.getLsbD true (4 * n) 4

theorem passed_nibbleOf (falling first : Bool) (x : BitVec 32) (n : Nat) {i : Nat} (small : i ≤ 4) :
    passed falling (nibbleOf x n).getLsbD first i =
      passed falling (fun j => x.getLsbD (4 * n + j)) first i :=
  passed_congr fun j inside => getLsbD_nibbleOf x n (by omega)

theorem nibbleOf_step (move : StackMove) (x : BitVec 32) {n : Nat} (inside : n < 8) :
    nibbleOf (move.step x) n = stepIf move (comesInto move x n) (nibbleOf x n) := by
  refine BitVec.eq_of_getLsbD_eq fun i small => ?_
  rw [getLsbD_nibbleOf _ n small, getLsbD_step x move (by omega), getLsbD_stepIf move _ _ small,
    passed_nibbleOf _ _ x n (Nat.le_of_lt small), getLsbD_nibbleOf x n small, passed_add, comesInto]

theorem stepIf_ne (move : StackMove) (comes : Bool) (x : BitVec 4) :
    stepIf move (!comes) x ≠ stepIf move comes x := by
  have push : ∀ x : BitVec 4, x + 1 ≠ x := by decide
  have pop : ∀ x : BitVec 4, x - 1 ≠ x := by decide
  have steps : move.step x ≠ x := by
    cases move with
    | push => exact push x
    | pop => exact pop x
  cases comes with
  | true => exact steps.symm
  | false => exact steps

theorem eq_of_nibbleOf {x y : BitVec 32} (same : ∀ n < 8, nibbleOf x n = nibbleOf y n) : x = y := by
  refine eq_of_nibbles fun n inside i small => ?_
  rw [← getLsbD_nibbleOf x n small, ← getLsbD_nibbleOf y n small, same n inside]

end Zkvm.Component
