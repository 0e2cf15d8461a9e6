import Mathlib
import Zkvm.Formula.Chain

/-!
# Rows of bits and chains of adders

A numbered name stands for a place of a row of bits, and an assignment gives the row a value.  The
clauses of a chain of adders hold under an assignment exactly when the rows `s` and `c` are the sum
of the two operand rows and the carries out of its places.
-/
set_option autoImplicit false

namespace Zkvm.Formula

def wireName (name : String) (index : Int) : String :=
  s!"{name}{index}"

theorem wireName_inj {name : String} {i j : Int} : wireName name i = wireName name j ↔ i = j := by
  constructor
  · intro same
    have lists : (name ++ toString i).toList = (name ++ toString j).toList :=
      congrArg String.toList same
    rw [String.toList_append, String.toList_append] at lists
    exact Int.repr_injective (String.ext (List.append_cancel_left lists))
  · rintro rfl
    rfl

/-- Rows whose names begin differently have no place in common. -/
theorem wireName_ne {a b : String} (first : a.toList.head?.isSome) (second : b.toList.head?.isSome)
    (differ : a.toList.head? ≠ b.toList.head?) (i j : Int) : wireName a i ≠ wireName b j := by
  intro same
  have heads : (a ++ toString i).toList.head? = (b ++ toString j).toList.head? :=
    congrArg (fun name => name.toList.head?) same
  rw [String.toList_append, String.toList_append, List.head?_append, List.head?_append,
    Option.or_of_isSome first, Option.or_of_isSome second] at heads
  exact differ heads

theorem sum_ne_carry (i j : Int) : wireName "s" i ≠ wireName "c" j :=
  wireName_ne (by decide) (by decide) (by decide) i j

/-- The value of a row of bits under an assignment, the lowest place first. -/
def row (value : Assignment) (name : String) (width : Nat) : BitVec width :=
  BitVec.ofFnLE fun i => value (wireName name i)

theorem getLsbD_row (value : Assignment) (name : String) {width i : Nat} (inside : i < width) :
    (row value name width).getLsbD i = value (wireName name i) := by
  rw [row, BitVec.getLsbD_ofFnLE, dif_pos inside]

theorem row_eq_iff {value : Assignment} {name : String} {width : Nat} {bits : BitVec width} :
    row value name width = bits ↔ ∀ i < width, value (wireName name i) = bits.getLsbD i := by
  constructor
  · rintro rfl i inside
    exact (getLsbD_row value name inside).symm
  · intro same
    apply BitVec.eq_of_getLsbD_eq
    intro i inside
    rw [getLsbD_row value name inside, same i inside]

theorem row_congr {value other : Assignment} {name : String} {width : Nat}
    (same : ∀ i < width, value (wireName name i) = other (wireName name i)) :
    row value name width = row other name width := by
  rw [row_eq_iff]
  intro i inside
  rw [getLsbD_row other name inside, same i inside]

theorem toNat_mod_succ {width : Nat} (x : BitVec width) (i : Nat) :
    x.toNat % 2 ^ (i + 1) = x.toNat % 2 ^ i + 2 ^ i * (x.getLsbD i).toNat := by
  rw [Nat.mod_pow_succ, ← BitVec.testBit_toNat, Nat.toNat_testBit]

theorem bitOf_eq_testBit (value : Int) (i : Nat) : bitOf value i = value.testBit i := by
  have positive : (0 : Int) < (Nat.pow 2 i : Nat) := Int.natCast_pos.mpr (Nat.two_pow_pos i)
  cases value with
  | ofNat n =>
      rw [bitOf, Int.testBit, Nat.testBit_eq_decide_div_mod_eq, Bool.eq_iff_iff, beq_iff_eq,
        decide_eq_true_iff]
      exact Int.ofNat_inj
  | negSucc n =>
      have complement : Int.negSucc n / (Nat.pow 2 i : Nat) = -((n / 2 ^ i : Nat) + 1) :=
        Int.negSucc_ediv n positive
      rw [bitOf, complement, Int.testBit, Nat.testBit_eq_decide_div_mod_eq, Bool.eq_iff_iff,
        beq_iff_eq, Bool.not_eq_true', decide_eq_false_iff_not]
      omega

/-! ## Truth of clauses -/

theorem holds_append (value : Assignment) (first second : List Clause) :
    holds value (first ++ second) = (holds value first && holds value second) :=
  List.all_append

theorem holds_flatMap {α : Type} (value : Assignment) (items : List α) (clauses : α → List Clause) :
    holds value (items.flatMap clauses) ↔ ∀ item ∈ items, holds value (clauses item) := by
  simp only [holds, List.all_flatMap, List.all_eq_true]

theorem holds_map {α : Type} (value : Assignment) (items : List α) (clause : α → Clause) :
    holds value (items.map clause) ↔ ∀ item ∈ items, (clause item).holds value := by
  simp only [holds, List.all_map, List.all_eq_true, Function.comp_apply]

theorem holds_pair (value : Assignment) (first second : Clause) :
    holds value [first, second] ↔ first.holds value ∧ second.holds value := by
  simp only [holds, List.all_cons, List.all_nil, Bool.and_true, Bool.and_eq_true]

theorem holds_wire (value : Assignment) (name : String) (index : Int) (term : Term) :
    (Clause.wire name index term).holds value ↔ value (wireName name index) = term.eval value := by
  simp only [Clause.wire, Clause.holds, beq_iff_eq, wireName]

/-! ## The chain of an addition -/

open Term (wire sum carry)

theorem eval_sum (value : Assignment) (a b before : Term) :
    (sum a b before).eval value = ((a.eval value ^^ b.eval value) ^^ before.eval value) :=
  rfl

theorem eval_carry (value : Assignment) (a b before : Term) :
    (carry a b before).eval value =
      ((a.eval value && b.eval value) || ((a.eval value ^^ b.eval value) && before.eval value)) :=
  rfl

/-- The carry that a chain computes is that of two bits out of three. -/
theorem carry_eq_atLeastTwo (a b before : Bool) :
    ((a && b) || ((a ^^ b) && before)) = Bool.atLeastTwo a b before := by
  cases a <;> cases b <;> cases before <;> rfl

/-- The clauses of an addition chain, place by place. -/
theorem holds_additionChain_places (value : Assignment) (a b : String) (width : Int) :
    holds value (additionChain a b width) ↔
      (value (wireName "s" 0) = (value (wireName a 0) ^^ value (wireName b 0)) ∧
        value (wireName "c" 0) = (value (wireName a 0) && value (wireName b 0))) ∧
      ∀ i : Nat, i + 1 < width.toNat →
        value (wireName "s" (i + 1 : Nat)) =
            ((value (wireName a (i + 1 : Nat)) ^^ value (wireName b (i + 1 : Nat))) ^^
              value (wireName "c" i)) ∧
          value (wireName "c" (i + 1 : Nat)) =
            ((value (wireName a (i + 1 : Nat)) && value (wireName b (i + 1 : Nat))) ||
              ((value (wireName a (i + 1 : Nat)) ^^ value (wireName b (i + 1 : Nat))) &&
                value (wireName "c" i))) := by
  have before (i : Nat) : ((i + 1 : Nat) : Int) - 1 = i := by omega
  rw [additionChain, holds_append, Bool.and_eq_true, holds_pair, holds_wire, holds_wire]
  refine and_congr Iff.rfl ?_
  rw [laterPlaces, holds_flatMap, List.forall_mem_map]
  constructor
  · intro chain i inside
    have clauses := chain i (List.mem_range.mpr (by omega))
    rw [holds_pair, holds_wire, holds_wire, eval_sum, eval_carry, before] at clauses
    exact clauses
  · intro places i member
    rw [holds_pair, holds_wire, holds_wire, eval_sum, eval_carry, before]
    exact places i (by have := List.mem_range.mp member; omega)

section Closed
variable (value : Assignment) (a b : String) {width i : Nat}

/-- A bit of the sum of two rows, from the bits of the rows and the carry into its place. -/
theorem getLsbD_row_add (inside : i < width) :
    (row value a width + row value b width).getLsbD i =
      ((value (wireName a i) ^^ value (wireName b i)) ^^
        BitVec.carry i (row value a width) (row value b width) false) := by
  rw [BitVec.getLsbD_add inside, getLsbD_row value a inside, getLsbD_row value b inside,
    Bool.xor_assoc]

/-- The carry out of a place, from the bits of the rows and the carry into it. -/
theorem carry_row_succ (inside : i < width) :
    BitVec.carry (i + 1) (row value a width) (row value b width) false =
      ((value (wireName a i) && value (wireName b i)) ||
        ((value (wireName a i) ^^ value (wireName b i)) &&
          BitVec.carry i (row value a width) (row value b width) false)) := by
  rw [BitVec.carry_succ, getLsbD_row value a inside, getLsbD_row value b inside,
    carry_eq_atLeastTwo]

end Closed

/-- The clauses of an addition chain hold exactly when `s` is the sum of the two rows and `c` are
its carries. -/
theorem holds_additionChain (value : Assignment) (a b : String) {width : Int}
    (positive : 1 ≤ width) :
    holds value (additionChain a b width) ↔
      ∀ i < width.toNat,
        value (wireName "s" i) = (row value a width.toNat + row value b width.toNat).getLsbD i ∧
        value (wireName "c" i) =
          BitVec.carry (i + 1) (row value a width.toNat) (row value b width.toNat) false := by
  have first : 0 < width.toNat := by omega
  have firstSum := getLsbD_row_add value a b first
  have firstCarry := carry_row_succ value a b first
  rw [BitVec.carry_zero, Bool.xor_false] at firstSum
  rw [BitVec.carry_zero, Bool.and_false, Bool.or_false] at firstCarry
  rw [holds_additionChain_places]
  constructor
  · rintro ⟨⟨sumZero, carryZero⟩, later⟩ i inside
    -- the carries by induction on the place; then every sum from the carry into its place
    have carries : ∀ j < width.toNat, value (wireName "c" j) =
        BitVec.carry (j + 1) (row value a width.toNat) (row value b width.toNat) false := by
      intro j
      induction j with
      | zero =>
          intro _
          exact carryZero.trans firstCarry.symm
      | succ j ih =>
          intro inside
          rw [carry_row_succ value a b inside, ← ih (by omega)]
          exact (later j inside).2
    refine ⟨?_, carries i inside⟩
    cases i with
    | zero => exact sumZero.trans firstSum.symm
    | succ j =>
        rw [getLsbD_row_add value a b inside, ← carries j (by omega)]
        exact (later j inside).1
  · intro places
    refine ⟨⟨(places 0 first).1.trans firstSum, (places 0 first).2.trans firstCarry⟩, ?_⟩
    intro j inside
    rw [(places j (by omega)).2, ← getLsbD_row_add value a b inside,
      ← carry_row_succ value a b inside]
    exact places (j + 1) inside

end Zkvm.Formula
