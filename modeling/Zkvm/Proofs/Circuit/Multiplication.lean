import Zkvm.Proofs.Circuit.CarryChain

/-!
# What a multiplication computes

The three lowest columns of the partial products are summed up exactly, and the higher bits of the
result are zero. A partial product is named by the numbers of its two bits, one after the other,
without anything between them.  From twelve bits on there are names that stand for two products, and
operands for which these differ have no solution.
-/
set_option autoImplicit false

namespace Zkvm.Circuit

open Formula (wireName row holds holdsText places IsName toNat_mod_succ)

/-! ## Names of partial products -/

def productName (j i : Nat) : String :=
  s!"p{j}{i}"

theorem toList_productName (j i : Nat) :
    (productName j i).toList = 'p' :: ((toString j).toList ++ (toString i).toList) := by
  have shape : productName j i = "p" ++ toString j ++ toString i := rfl
  rw [shape, String.toList_append, String.toList_append]
  rfl

theorem head_productName (j i : Nat) : (productName j i).toList.head? = some 'p' := by
  rw [toList_productName, List.head?_cons]

theorem head_sumName (i : Nat) : (wireName "m" i).toList.head? = some 'm' := by
  have shape : wireName "m" i = "m" ++ toString i := rfl
  rw [shape, String.toList_append]
  rfl

theorem length_toString_small {n : Nat} (small : n ≤ 10) :
    (toString n).toList.length = if n < 10 then 1 else 2 := by
  revert n
  decide

/-- Below width twelve a name tells its two numbers: either both have one digit, or one is ten and
the other zero. -/
theorem productName_inj {i j k l : Nat} (here : i + j < 11) (there : k + l < 11)
    (same : productName j i = productName l k) : i = k ∧ j = l := by
  have digits :
      (toString j).toList ++ (toString i).toList = (toString l).toList ++ (toString k).toList := by
    have lists := congrArg String.toList same
    rw [toList_productName, toList_productName] at lists
    exact List.tail_eq_of_cons_eq lists
  have lengths := congrArg List.length digits
  rw [List.length_append, List.length_append, length_toString_small (by omega),
    length_toString_small (by omega), length_toString_small (by omega),
    length_toString_small (by omega)] at lengths
  by_cases aligned : (toString j).toList.length = (toString l).toList.length
  · obtain ⟨second, first⟩ := List.append_inj digits aligned
    exact ⟨Nat.repr_injective (String.ext first), Nat.repr_injective (String.ext second)⟩
  · rw [length_toString_small (by omega), length_toString_small (by omega)] at aligned
    obtain ⟨rfl, rfl, rfl, rfl⟩ | ⟨rfl, rfl, rfl, rfl⟩ :
        (i = 0 ∧ j = 10 ∧ k = 10 ∧ l = 0) ∨ (i = 10 ∧ j = 0 ∧ k = 0 ∧ l = 10) := by
      split_ifs at lengths aligned <;> omega
    all_goals exact absurd same (by decide)

/-! ## The low bits of a product -/

/-- The three lowest bits of the product of two rows, and zeros above. -/
def columnBit (x y : Nat → Bool) : Nat → Bool
  | 0 => x 0 && y 0
  | 1 => (x 1 && y 0) ^^ (x 0 && y 1)
  | 2 => (((x 2 && y 0) ^^ (x 1 && y 1)) ^^ (x 0 && y 2)) ^^ ((x 1 && y 0) && (x 0 && y 1))
  | _ => false

def lowProduct (count : Nat) {width : Nat} (x y : BitVec width) : BitVec count :=
  BitVec.ofFnLE fun i => columnBit x.getLsbD y.getLsbD i

theorem getLsbD_lowProduct {count width i : Nat} (x y : BitVec width) (inside : i < count) :
    (lowProduct count x y).getLsbD i = columnBit x.getLsbD y.getLsbD i := by
  rw [lowProduct, BitVec.getLsbD_ofFnLE, dif_pos inside]

theorem toNat_mod_eight {width : Nat} (x : BitVec width) :
    x.toNat % 2 ^ 3 = (x.getLsbD 0).toNat + 2 * (x.getLsbD 1).toNat + 4 * (x.getLsbD 2).toNat := by
  have first := toNat_mod_succ x 0
  have second := toNat_mod_succ x 1
  have third := toNat_mod_succ x 2
  omega

theorem testBit_product (x y : Nat → Bool) :
    ∀ i < 3, ((((x 0).toNat + 2 * (x 1).toNat + 4 * (x 2).toNat) *
      ((y 0).toNat + 2 * (y 1).toNat + 4 * (y 2).toNat)).testBit i) = columnBit x y i := by
  intro i small
  obtain rfl | rfl | rfl : i = 0 ∨ i = 1 ∨ i = 2 := by omega
  all_goals
    simp only [columnBit]
    cases x 0 <;> cases x 1 <;> cases x 2 <;> cases y 0 <;> cases y 1 <;> cases y 2 <;> rfl

/-- The columns are the bits of the product of the words. -/
theorem testBit_mul {width : Nat} (x y : BitVec width) {i : Nat} (small : i < 3) :
    (x.toNat * y.toNat).testBit i = columnBit x.getLsbD y.getLsbD i := by
  have low (n : Nat) : n.testBit i = (n % 2 ^ 3).testBit i := by
    rw [Nat.testBit_mod_two_pow, decide_eq_true small, Bool.true_and]
  rw [low, Nat.mul_mod, toNat_mod_eight, toNat_mod_eight, ← low]
  exact testBit_product x.getLsbD y.getLsbD i small

theorem columnBit_of_le {x y : Nat → Bool} {i : Nat} (high : 3 ≤ i) : columnBit x y i = false := by
  obtain ⟨k, rfl⟩ := Nat.exists_eq_add_of_le' high
  rfl

theorem toNat_lowProduct {width : Nat} (x y : BitVec width) :
    (lowProduct width x y).toNat = x.toNat * y.toNat % 2 ^ min width 3 := by
  apply Nat.eq_of_testBit_eq
  intro i
  rw [Nat.testBit_mod_two_pow, BitVec.testBit_toNat]
  by_cases inside : i < width
  · rw [getLsbD_lowProduct x y inside]
    by_cases small : i < 3
    · rw [testBit_mul x y small, decide_eq_true (by omega), Bool.true_and]
    · rw [columnBit_of_le (by omega), decide_eq_false (by omega), Bool.false_and]
  · rw [BitVec.getLsbD_of_ge _ _ (by omega), decide_eq_false (by omega), Bool.false_and]

/-! ## Clauses of a multiplication -/

theorem holds_partialProducts (value : Assignment) (a b : String) (width : Int) :
    holds value (Formula.partialProducts a b width) = true ↔
      ∀ i j : Nat, i + j < width.toNat →
        value (productName j i) = (value (wireName a i) && value (wireName b j)) := by
  simp only [Formula.partialProducts, Formula.holds_flatMap, Formula.holds_map,
    List.mem_filter, places, List.mem_range, decide_eq_true_eq, Formula.holds_define]
  constructor
  · intro each i j inside
    exact each j (by omega) i ⟨by omega, by omega⟩
  · rintro each j _ i ⟨_, inside⟩
    exact each i j (by omega)

theorem holds_ite (value : Assignment) (condition : Prop) [Decidable condition]
    (clauses : List Clause) :
    holds value (if condition then clauses else []) = true ↔
      (condition → holds value clauses = true) := by
  by_cases met : condition
  · rw [if_pos met]
    exact (imp_iff_right met).symm
  · rw [if_neg met]
    exact iff_of_true rfl fun there => absurd there met

theorem holds_columns (value : Assignment) (width : Int) :
    holds value (columns width) = true ↔
      value "m0" = value "p00" ∧ (1 < width → value "m1" = (value "p01" ^^ value "p10")) ∧
        (2 < width → value "c10" = (value "p01" && value "p10") ∧
          value "m2" = (((value "p02" ^^ value "p11") ^^ value "p20") ^^ value "c10")) := by
  rw [columns, Formula.holds_append, Formula.holds_append, Bool.and_eq_true, Bool.and_eq_true,
    holds_ite, holds_ite, Formula.holds_singleton, Formula.holds_singleton, Formula.holds_pair,
    and_assoc]
  simp only [Formula.holds_define]
  rfl

theorem holds_zeros (value : Assignment) (c : String) (width : Int) :
    holds value (((places width).filter fun (i : Nat) => decide (3 ≤ i)).map fun (i : Nat) =>
      .fixWire c i false) =
        true ↔ ∀ i < width.toNat, 3 ≤ i → value (wireName c i) = false := by
  simp only [Formula.holds_map, List.mem_filter, places, List.mem_range, decide_eq_true_eq, and_imp]
  simp only [Clause.fixWire, Formula.holds_define, Term.eval]
  rfl

section Rows
variable {value : Assignment} {a b c : Variable} {x y : BitVec a.width.toNat}

theorem holds_columns_of_products (positive : 1 ≤ a.width)
    (products : ∀ i j : Nat, i + j < a.width.toNat →
      value (productName j i) = (x.getLsbD i && y.getLsbD j)) :
    holds value (columns a.width) = true ↔
      row value "m" (min a.width.toNat 3) = lowProduct (min a.width.toNat 3) x y ∧
        (2 < a.width → value "c10" =
          ((x.getLsbD 1 && y.getLsbD 0) && (x.getLsbD 0 && y.getLsbD 1))) := by
  have p00 : value "p00" = (x.getLsbD 0 && y.getLsbD 0) := products 0 0 (by omega)
  have m0 : wireName "m" (0 : Nat) = "m0" := by decide
  have m1 : wireName "m" (1 : Nat) = "m1" := by decide
  have m2 : wireName "m" (2 : Nat) = "m2" := by decide
  have p01 (wide : 1 < a.width) : value "p01" = (x.getLsbD 1 && y.getLsbD 0) :=
    products 1 0 (by omega)
  have p10 (wide : 1 < a.width) : value "p10" = (x.getLsbD 0 && y.getLsbD 1) :=
    products 0 1 (by omega)
  have p02 (wide : 2 < a.width) : value "p02" = (x.getLsbD 2 && y.getLsbD 0) :=
    products 2 0 (by omega)
  have p11 (wide : 2 < a.width) : value "p11" = (x.getLsbD 1 && y.getLsbD 1) :=
    products 1 1 (by omega)
  have p20 (wide : 2 < a.width) : value "p20" = (x.getLsbD 0 && y.getLsbD 2) :=
    products 0 2 (by omega)
  rw [holds_columns, Formula.row_eq_iff]
  constructor
  · rintro ⟨lowest, second, third⟩
    constructor
    · intro i inside
      rw [getLsbD_lowProduct x y inside]
      obtain rfl | rfl | rfl : i = 0 ∨ i = 1 ∨ i = 2 := by omega
      · rw [m0, lowest, p00, columnBit]
      · have wide : 1 < a.width := by omega
        rw [m1, second wide, p01 wide, p10 wide, columnBit]
      · have wide : 2 < a.width := by omega
        rw [m2, (third wide).2, (third wide).1, p01 (by omega), p10 (by omega), p02 wide, p11 wide,
          p20 wide, columnBit]
    · intro wide
      rw [(third wide).1, p01 (by omega), p10 (by omega)]
  · rintro ⟨sums, carry⟩
    refine ⟨?_, fun wide => ?_, fun wide => ⟨?_, ?_⟩⟩
    · rw [← m0, sums 0 (by omega), getLsbD_lowProduct x y (by omega), p00, columnBit]
    · rw [← m1, sums 1 (by omega), getLsbD_lowProduct x y (by omega), p01 wide, p10 wide, columnBit]
    · rw [carry wide, p01 (by omega), p10 (by omega)]
    · rw [← m2, sums 2 (by omega), getLsbD_lowProduct x y (by omega), carry wide, p02 wide,
        p11 wide, p20 wide, columnBit]

/-- The clauses of a multiplication hold exactly when every name of a partial product has its value,
the columns are summed up, and the third row has their sums. -/
theorem holds_multiplication (positive : 1 ≤ a.width) (first : row value a.name a.width.toNat = x)
    (second : row value b.name a.width.toNat = y) :
    holds value (multiplication a b c) = true ↔
      (∀ i j : Nat, i + j < a.width.toNat →
        value (productName j i) = (x.getLsbD i && y.getLsbD j)) ∧
      (row value "m" (min a.width.toNat 3) = lowProduct (min a.width.toNat 3) x y ∧
        (2 < a.width → value "c10" =
          ((x.getLsbD 1 && y.getLsbD 0) && (x.getLsbD 0 && y.getLsbD 1)))) ∧
      row value c.name a.width.toNat = lowProduct a.width.toNat x y := by
  rw [Formula.row_eq_iff] at first second
  have products : holds value (Formula.partialProducts a.name b.name a.width) = true ↔
      ∀ i j : Nat, i + j < a.width.toNat →
        value (productName j i) = (x.getLsbD i && y.getLsbD j) := by
    rw [holds_partialProducts]
    refine forall₃_congr fun i j inside => ?_
    rw [first i (by omega), second j (by omega)]
  have low : (if a.width < 3 then a.width else 3).toNat = min a.width.toNat 3 := by
    split <;> omega
  simp only [multiplication, Formula.holds_append, Bool.and_eq_true, and_assoc, products,
    holds_assign, holds_zeros, low]
  refine and_congr_right fun each => ?_
  rw [holds_columns_of_products positive each, and_assoc]
  refine and_congr_right fun sums => and_congr_right fun _ => ?_
  rw [Formula.row_eq_iff] at sums ⊢
  constructor
  · rintro ⟨copies, zeros⟩ i inside
    rw [getLsbD_lowProduct x y inside]
    by_cases small : i < 3
    · rw [copies i (by omega), sums i (by omega), getLsbD_lowProduct x y (by omega)]
    · rw [zeros i inside (by omega), columnBit_of_le (by omega)]
  · intro result
    constructor
    · intro i inside
      rw [sums i inside, result i (by omega), getLsbD_lowProduct x y inside,
        getLsbD_lowProduct x y (by omega)]
    · intro i inside high
      rw [result i inside, getLsbD_lowProduct x y inside, columnBit_of_le high]

end Rows

/-! ## Solutions -/

/-- Partial products of one name are equal. -/
def ProductsAgree {width : Nat} (x y : BitVec width) : Prop :=
  ∀ i j k l : Nat, i + j < width → k + l < width → productName j i = productName l k →
    (x.getLsbD i && y.getLsbD j) = (x.getLsbD k && y.getLsbD l)

theorem productsAgree_of_narrow {width : Nat} (narrow : width ≤ 11) (x y : BitVec width) :
    ProductsAgree x y := by
  intro i j k l here there same
  obtain ⟨rfl, rfl⟩ := productName_inj (by omega) (by omega) same
  rfl

/-- Bit ten times bit one has the name of bit zero times bit eleven. -/
theorem not_productsAgree {width : Nat} (wide : 12 ≤ width) :
    ¬ ProductsAgree (BitVec.twoPow width 0) (BitVec.twoPow width 11) := by
  intro agree
  have same := agree 10 1 0 11 (by omega) (by omega) (by decide)
  simp only [BitVec.getLsbD_twoPow] at same
  simp [show 0 < width by omega, show 11 < width by omega] at same

section Tables
variable {width : Nat} (x y : BitVec width)

def productTable : List (String × Bool) :=
  (List.range width).flatMap fun j =>
    ((List.range width).filter fun i => decide (i + j < width)).map fun i =>
      (productName j i, x.getLsbD i && y.getLsbD j)

def carryTable : List (String × Bool) :=
  if 2 < width then [("c10", (x.getLsbD 1 && y.getLsbD 0) && (x.getLsbD 0 && y.getLsbD 1))] else []

/-- What every name of a multiplication is beside those of its operands and its result. -/
def multiplicationScratch : List (String × Bool) :=
  productTable x y ++ (wires "m" (lowProduct (min width 3) x y) ++ carryTable x y)

variable {x y}

theorem mem_productTable {entry : String × Bool} :
    entry ∈ productTable x y ↔
      ∃ i j, i + j < width ∧ (productName j i, x.getLsbD i && y.getLsbD j) = entry := by
  simp only [productTable, List.mem_flatMap, List.mem_map, List.mem_filter, List.mem_range,
    decide_eq_true_eq]
  constructor
  · rintro ⟨j, _, i, ⟨_, inside⟩, rfl⟩
    exact ⟨i, j, inside, rfl⟩
  · rintro ⟨i, j, inside, rfl⟩
    exact ⟨j, by omega, i, ⟨by omega, inside⟩, rfl⟩

theorem mem_carryTable {entry : String × Bool} :
    entry ∈ carryTable x y ↔
      2 < width ∧ ("c10", (x.getLsbD 1 && y.getLsbD 0) && (x.getLsbD 0 && y.getLsbD 1)) =
        entry := by
  rw [carryTable]
  by_cases wide : 2 < width
  · rw [if_pos wide, List.mem_singleton, eq_comm, and_iff_right wide]
  · rw [if_neg wide]
    exact iff_of_false List.not_mem_nil fun there => wide there.1

theorem agrees_multiplicationScratch {value : Assignment} :
    Agrees value (multiplicationScratch x y) ↔
      (∀ i j : Nat, i + j < width → value (productName j i) = (x.getLsbD i && y.getLsbD j)) ∧
      row value "m" (min width 3) = lowProduct (min width 3) x y ∧
        (2 < width →
          value "c10" = ((x.getLsbD 1 && y.getLsbD 0) && (x.getLsbD 0 && y.getLsbD 1))) := by
  rw [multiplicationScratch, agrees_append, agrees_append, agrees_wires]
  refine and_congr ?_ (and_congr_right fun _ => ?_)
  · constructor
    · intro agrees i j inside
      exact agrees _ (mem_productTable.mpr ⟨i, j, inside, rfl⟩)
    · rintro each _ member
      obtain ⟨i, j, inside, rfl⟩ := mem_productTable.mp member
      exact each i j inside
  · constructor
    · intro agrees wide
      exact agrees _ (mem_carryTable.mpr ⟨wide, rfl⟩)
    · rintro each _ member
      obtain ⟨wide, rfl⟩ := mem_carryTable.mp member
      exact each wide

theorem mem_keys_productTable {name : String} :
    name ∈ (productTable x y).map Prod.fst ↔ ∃ i j, i + j < width ∧ productName j i = name := by
  simp only [List.mem_map, mem_productTable]
  constructor
  · rintro ⟨_, ⟨i, j, inside, rfl⟩, rfl⟩
    exact ⟨i, j, inside, rfl⟩
  · rintro ⟨i, j, inside, rfl⟩
    exact ⟨_, ⟨i, j, inside, rfl⟩, rfl⟩

theorem mem_keys_carryTable {name : String} :
    name ∈ (carryTable x y).map Prod.fst ↔ 2 < width ∧ "c10" = name := by
  simp only [List.mem_map, mem_carryTable]
  constructor
  · rintro ⟨_, ⟨wide, rfl⟩, rfl⟩
    exact ⟨wide, rfl⟩
  · rintro ⟨wide, rfl⟩
    exact ⟨_, ⟨wide, rfl⟩, rfl⟩

theorem singleValued_productTable (agree : ProductsAgree x y) :
    SingleValued (productTable x y) := by
  intro name here there
  obtain ⟨i, j, inside, product⟩ := mem_productTable.mp here
  obtain ⟨k, l, within, other⟩ := mem_productTable.mp there
  obtain ⟨rfl, set⟩ := Prod.mk.inj product
  obtain ⟨same, unset⟩ := Prod.mk.inj other
  have equal := agree i j k l inside within same.symm
  rw [set, unset] at equal
  cases equal

theorem singleValued_carryTable : SingleValued (carryTable x y) := by
  intro name here there
  obtain ⟨_, set⟩ := mem_carryTable.mp here
  obtain ⟨_, unset⟩ := mem_carryTable.mp there
  rw [set] at unset
  cases unset

theorem singleValued_multiplicationScratch (agree : ProductsAgree x y) :
    SingleValued (multiplicationScratch x y) := by
  have sums : SingleValued (wires "m" (lowProduct (min width 3) x y) ++ carryTable x y) := by
    refine (singleValued_wires "m" _).append singleValued_carryTable fun name here there => ?_
    obtain ⟨i, _, rfl⟩ := mem_keys_wires.mp here
    obtain ⟨_, carry⟩ := mem_keys_carryTable.mp there
    have begins := congrArg (fun name => name.toList.head?) carry
    rw [head_sumName] at begins
    exact absurd begins (by decide)
  refine (singleValued_productTable agree).append sums fun name here there => ?_
  obtain ⟨i, j, _, rfl⟩ := mem_keys_productTable.mp here
  rw [List.map_append, List.mem_append] at there
  rcases there with sum | carry
  · obtain ⟨k, _, same⟩ := mem_keys_wires.mp sum
    have begins := congrArg (fun name => name.toList.head?) same
    rw [head_sumName, head_productName] at begins
    exact absurd begins (by decide)
  · obtain ⟨_, same⟩ := mem_keys_carryTable.mp carry
    have begins := congrArg (fun name => name.toList.head?) same
    rw [head_productName] at begins
    exact absurd begins (by decide)

end Tables

section Solutions
variable {a b c : Variable} (secondWidth : b.width = a.width) (thirdWidth : c.width = a.width)
  (positive : 1 ≤ a.width) (apart : (a.bitNames ++ b.bitNames ++ c.bitNames).Nodup)
  (clear : ∀ name ∈ a.bitNames ++ b.bitNames ++ c.bitNames,
    (∀ i < a.width.toNat, ∀ j < a.width.toNat, i + j < a.width.toNat → name ≠ productName j i) ∧
    (∀ i < min a.width.toNat 3, name ≠ wireName "m" (i : Nat)) ∧ (2 < a.width.toNat → name ≠ "c10"))
include secondWidth thirdWidth positive apart clear

/-- Operands have a solution exactly if their partial products of one name are equal. -/
theorem exists_multiplication_iff (x y : BitVec a.width.toNat) :
    (∃ solution : Assignment, row solution a.name a.width.toNat = x ∧
      row solution b.name a.width.toNat = y ∧
      holds solution (multiplication a b c) = true) ↔ ProductsAgree x y := by
  constructor
  · rintro ⟨solution, first, second, satisfied⟩ i j k l here there same
    obtain ⟨products, _⟩ := (holds_multiplication positive first second).mp satisfied
    rw [← products i j here, ← products k l there, same]
  · intro agree
    have unlisted : ∀ name ∈ a.bitNames ++ b.bitNames ++ c.bitNames,
        name ∉ (multiplicationScratch x y).map Prod.fst := by
      intro name declared there
      obtain ⟨noProduct, noSum, noCarry⟩ := clear name declared
      simp only [multiplicationScratch, List.map_append, List.mem_append, mem_keys_productTable,
        mem_keys_wires, mem_keys_carryTable] at there
      rcases there with ⟨i, j, inside, rfl⟩ | ⟨i, inside, rfl⟩ | ⟨wide, rfl⟩
      · exact noProduct i (by omega) j (by omega) inside rfl
      · exact noSum i inside rfl
      · exact noCarry wide rfl
    obtain ⟨solution, first, second, result, scratch⟩ := exists_beside secondWidth thirdWidth x y
      (lowProduct a.width.toNat x y) apart (singleValued_multiplicationScratch agree) unlisted
    obtain ⟨products, sums, carry⟩ := agrees_multiplicationScratch.mp scratch
    refine ⟨solution, first, second,
      (holds_multiplication positive first second).mpr ⟨products, ⟨sums, ?_⟩, result⟩⟩
    intro wide
    exact carry (by omega)

end Solutions

/-- What a multiplication computes, at every width.  Take three variables of one positive width, all
of whose bits have names of their own, none of them that of a partial product, a sum of a column or
the carry.  In every solution the third is the product of the first two modulo eight, or modulo two
to the width if it is less than three.  Operands have a solution exactly if their partial products
of one name are equal; so all operands have one up to width eleven, and at no greater width.  The
texts of the clauses say the same, if the variables are called by names. -/
theorem multiplication_of_low_bits (a b c : Variable) (secondWidth : b.width = a.width)
    (thirdWidth : c.width = a.width) (positive : 1 ≤ a.width)
    (apart : (a.bitNames ++ b.bitNames ++ c.bitNames).Nodup)
    (clear : ∀ name ∈ a.bitNames ++ b.bitNames ++ c.bitNames,
      (∀ i < a.width.toNat, ∀ j < a.width.toNat, i + j < a.width.toNat → name ≠ productName j i) ∧
      (∀ i < min a.width.toNat 3, name ≠ wireName "m" (i : Nat)) ∧
      (2 < a.width.toNat → name ≠ "c10")) :
    ∃ clauses, lowerMultiplication [a, b, c] = .ok clauses ∧
      (∀ solution : Assignment, holds solution clauses = true →
        (row solution c.name a.width.toNat).toNat =
          (row solution a.name a.width.toNat).toNat * (row solution b.name a.width.toNat).toNat %
          2 ^ min a.width.toNat 3) ∧
      (∀ x y : BitVec a.width.toNat,
        (∃ solution : Assignment, row solution a.name a.width.toNat = x ∧
          row solution b.name a.width.toNat = y ∧
          holds solution clauses = true) ↔ ProductsAgree x y) ∧
      ((∀ x y : BitVec a.width.toNat, ∃ solution : Assignment,
        row solution a.name a.width.toNat = x ∧
        row solution b.name a.width.toNat = y ∧ holds solution clauses = true) ↔ a.width ≤ 11) ∧
      (IsName a.name → IsName b.name → IsName c.name → ∀ value : Assignment, ∀ clause ∈ clauses,
        holdsText value clause.text = clause.holds value) := by
  have solvable := exists_multiplication_iff secondWidth thirdWidth positive apart clear
  refine ⟨multiplication a b c, rfl, ?_, solvable, ?_, ?_⟩
  · intro solution satisfied
    obtain ⟨_, _, result⟩ := (holds_multiplication positive rfl rfl).mp satisfied
    rw [result, toNat_lowProduct]
  · simp only [solvable]
    constructor
    · intro agree
      by_contra wide
      exact not_productsAgree (by omega) (agree _ _)
    · intro narrow x y
      exact productsAgree_of_narrow (by omega) x y
  · intro firstName secondName thirdName value clause member
    exact Formula.holdsText_text
      (bracketed_multiplication firstName secondName thirdName clause member) value

/-- Variables of three bits that are called as products, sums and carries are, but of other places.
Five times seven is three modulo eight. -/
theorem multiplication_of_low_bits_beyond :
    let x : Variable := { name := "p3", width := 3 }
    let y : Variable := { name := "m1", width := 3 }
    let z : Variable := { name := "c", width := 3 }
    (x.bitNames ++ y.bitNames ++ z.bitNames).Nodup ∧
      (∀ name ∈ x.bitNames ++ y.bitNames ++ z.bitNames,
        (∀ i < x.width.toNat, ∀ j < x.width.toNat, i + j < x.width.toNat → name ≠ productName j i) ∧
        (∀ i < min x.width.toNat 3, name ≠ wireName "m" (i : Nat)) ∧
        (2 < x.width.toNat → name ≠ "c10")) ∧
      ∃ clauses, lowerMultiplication [x, y, z] = .ok clauses ∧
        ∃ solution : Assignment, holds solution clauses = true ∧ row solution "p3" 3 = 5 ∧
          row solution "m1" 3 = 7 ∧
          (row solution "c" 3).toNat = 3 := by
  intro x y z
  have apart : (x.bitNames ++ y.bitNames ++ z.bitNames).Nodup := by decide
  have clear : ∀ name ∈ x.bitNames ++ y.bitNames ++ z.bitNames,
      (∀ i < x.width.toNat, ∀ j < x.width.toNat, i + j < x.width.toNat → name ≠ productName j i) ∧
      (∀ i < min x.width.toNat 3, name ≠ wireName "m" (i : Nat)) ∧
      (2 < x.width.toNat → name ≠ "c10") := by decide
  obtain ⟨clauses, lowered, results, _, solvable, _⟩ :=
    multiplication_of_low_bits x y z rfl rfl (by decide) apart clear
  obtain ⟨solution, first, second, satisfied⟩ :=
    solvable.mpr (by decide) (BitVec.ofNat 3 5) (BitVec.ofNat 3 7)
  have result := results solution satisfied
  rw [first, second] at result
  exact ⟨apart, clear, clauses, lowered, solution, satisfied, first, second,
    result.trans (by decide)⟩

/-- At width twelve one times two to the eleventh has no solution. -/
theorem twelve_bits_unsolved :
    let x : Variable := { name := "x", width := 12 }
    let y : Variable := { name := "y", width := 12 }
    let z : Variable := { name := "z", width := 12 }
    (x.bitNames ++ y.bitNames ++ z.bitNames).Nodup ∧
      (∀ name ∈ x.bitNames ++ y.bitNames ++ z.bitNames,
        (∀ i < x.width.toNat, ∀ j < x.width.toNat, i + j < x.width.toNat → name ≠ productName j i) ∧
        (∀ i < min x.width.toNat 3, name ≠ wireName "m" (i : Nat)) ∧
        (2 < x.width.toNat → name ≠ "c10")) ∧
      ∃ clauses, lowerMultiplication [x, y, z] = .ok clauses ∧
        ¬ ∃ solution : Assignment, row solution "x" 12 = 1 ∧ row solution "y" 12 = 2048 ∧
          holds solution clauses = true := by
  intro x y z
  refine ⟨by decide +kernel, ?_, multiplication x y z, rfl, ?_⟩
  · have begins : ∀ name ∈ x.bitNames ++ y.bitNames ++ z.bitNames,
        name.toList.head? = some 'x' ∨ name.toList.head? = some 'y' ∨
          name.toList.head? = some 'z' := by
      decide +kernel
    intro name declared
    refine ⟨fun i _ j _ _ same => ?_, fun i _ same => ?_, fun _ same => ?_⟩
    · have first := begins name declared
      rw [same, head_productName] at first
      exact absurd first (by decide)
    · have first := begins name declared
      rw [same, head_sumName] at first
      exact absurd first (by decide)
    · have first := begins name declared
      rw [same] at first
      exact absurd first (by decide)
  · rintro ⟨solution, first, second, satisfied⟩
    obtain ⟨products, _⟩ := (holds_multiplication (by decide) first second).mp satisfied
    have shared : productName 1 10 = productName 11 0 := by decide
    have high := products 10 1 (by decide)
    have low := products 0 11 (by decide)
    rw [shared, low] at high
    exact absurd high (by decide)

end Zkvm.Circuit
