import Zkvm.Proofs.Circuit.CarryChain
import Zkvm.Proofs.Formula.Ripple

/-!
# What a subtraction computes

A subtraction adds the complement of its second operand, with one carried in.  What its places carry
on is not the carry of a full adder: where the first operand has a one, the second a zero and a one
is carried in, the carry is lost.  Each carry that is lost takes its weight from the result, so that
the result is the difference only if none is lost below the highest place.
-/
set_option autoImplicit false

namespace Zkvm.Circuit

open Formula (wireName row holds holdsText places laterPlaces IsName handedOn Ripples
  toNat_mod_succ)
open Term (wire)

/-! ## Chains that carry on in their own way -/

section Chain
variable (handsOn : Bool → Bool → Bool → Bool) {width : Nat} (x y : BitVec width)

/-- The carries into the places of `x` plus the complement of `y` plus one, where `handsOn` tells
what a place carries on. -/
def chainCarry : Nat → Bool
  | 0 => true
  | i + 1 => handsOn (x.getLsbD i) (!y.getLsbD i) (chainCarry i)

def chainCarries : BitVec width :=
  BitVec.ofFnLE fun i => chainCarry handsOn x y (i + 1)

def chainSum : BitVec width :=
  BitVec.ofFnLE fun i => (x.getLsbD i ^^ !y.getLsbD i) ^^ chainCarry handsOn x y i

variable {i : Nat} (inside : i < width)
include inside

theorem getLsbD_chainCarries :
    (chainCarries handsOn x y).getLsbD i = chainCarry handsOn x y (i + 1) := by
  rw [chainCarries, BitVec.getLsbD_ofFnLE, dif_pos inside]

theorem getLsbD_chainSum :
    (chainSum handsOn x y).getLsbD i =
      ((x.getLsbD i ^^ !y.getLsbD i) ^^ chainCarry handsOn x y i) := by
  rw [chainSum, BitVec.getLsbD_ofFnLE, dif_pos inside]

end Chain

theorem getLsbD_not {width i : Nat} (y : BitVec width) (inside : i < width) :
    (~~~y).getLsbD i = !y.getLsbD i := by
  rw [BitVec.getLsbD_not, decide_eq_true inside, Bool.true_and]

theorem chainSum_handedOn {width : Nat} (x y : BitVec width) : chainSum handedOn x y = x - y := by
  have chain :
      Ripples width x.getLsbD (~~~y).getLsbD (chainCarry handedOn x y)
        (chainSum handedOn x y).getLsbD := by
    constructor
    · intro i inside
      rw [getLsbD_chainSum handedOn x y inside, getLsbD_not y inside]
    · intro i inside
      rw [getLsbD_not y inside, chainCarry]
  apply BitVec.eq_of_getLsbD_eq
  intro i inside
  rw [chain.sum_eq inside, ← Formula.addWithCarry_not]
  rfl

/-! ## Clauses with a carry of their own -/

def subtractionChainWith (carryOn : Term → Term → Term → Term) (a : String) (width : Int) :
    List Clause :=
  [.wire "s" 0 (.sum (wire a 0) (wire "nb" 0) (.bit true)),
    .wire "c" 0 (carryOn (wire a 0) (wire "nb" 0) (.bit true))] ++
    (laterPlaces width).flatMap fun (i : Nat) =>
      let before := wire "c" (i - 1)
      [.wire "s" i (.sum (wire a i) (wire "nb" i) before),
        .wire "c" i (carryOn (wire a i) (wire "nb" i) before)]

/-- A subtraction with a term for what is carried on. -/
def subtractionWith (carryOn : Term → Term → Term → Term) (a b c : Variable) : List Clause :=
  Formula.complement b.name a.width ++ subtractionChainWith carryOn a.name a.width ++
    assign c.name "s" a.width

theorem subtraction_eq (a b c : Variable) :
    subtraction a b c = subtractionWith Formula.borrowCarry a b c :=
  rfl

/-- What comes into a place: one into the lowest, the carry of the place before into the others. -/
def cameIn (value : Assignment) : Nat → Bool
  | 0 => true
  | i + 1 => value (wireName "c" i)

/-- Place by place, the carries come in as the chain has them; then all sums are its sums. -/
theorem places_iff_rows (handsOn : Bool → Bool → Bool → Bool) {value : Assignment} {a : String}
    {width : Nat} {x y : BitVec width} (first : row value a width = x)
    (flipped : row value "nb" width = ~~~y) :
    (∀ i < width,
      value (wireName "s" i) =
        ((value (wireName a i) ^^ value (wireName "nb" i)) ^^ cameIn value i) ∧
      value (wireName "c" i) =
        handsOn (value (wireName a i)) (value (wireName "nb" i)) (cameIn value i)) ↔
      row value "s" width = chainSum handsOn x y ∧
        row value "c" width = chainCarries handsOn x y := by
  rw [Formula.row_eq_iff] at first flipped
  have places :
      ∀ i < width, value (wireName a i) = x.getLsbD i ∧ value (wireName "nb" i) = !y.getLsbD i := by
    intro i inside
    exact ⟨first i inside, (flipped i inside).trans (getLsbD_not y inside)⟩
  simp only [Formula.row_eq_iff]
  constructor
  · intro chain
    have carried : ∀ i ≤ width, cameIn value i = chainCarry handsOn x y i := by
      intro i
      induction i with
      | zero => exact fun _ => rfl
      | succ i ih =>
          intro inside
          rw [cameIn, (chain i inside).2, (places i inside).1, (places i inside).2, ih (by omega),
            chainCarry]
    constructor
    · intro i inside
      rw [(chain i inside).1, (places i inside).1, (places i inside).2, carried i (by omega),
        getLsbD_chainSum handsOn x y inside]
    · intro i inside
      rw [getLsbD_chainCarries handsOn x y inside, ← carried (i + 1) inside, cameIn]
  · rintro ⟨sums, carries⟩ i inside
    have carried : cameIn value i = chainCarry handsOn x y i := by
      cases i with
      | zero => rfl
      | succ i => rw [cameIn, carries i (by omega), getLsbD_chainCarries handsOn x y (by omega)]
    constructor
    · rw [sums i inside, getLsbD_chainSum handsOn x y inside, (places i inside).1,
        (places i inside).2, carried]
    · rw [carries i inside, getLsbD_chainCarries handsOn x y inside, chainCarry,
        (places i inside).1, (places i inside).2, carried]

theorem holds_complement (value : Assignment) (b : String) (width : Int) :
    holds value (Formula.complement b width) = true ↔
      ∀ i < width.toNat, value (wireName "nb" i) = !value (wireName b i) := by
  rw [Formula.complement, Formula.holds_map, places]
  simp only [List.mem_range, Formula.holds_wire, Term.eval_flipped]
  rfl

section Holds
variable {carryOn : Term → Term → Term → Term} {handsOn : Bool → Bool → Bool → Bool}
  (meaning : ∀ (value : Assignment) (a n before : Term),
    (carryOn a n before).eval value = handsOn (a.eval value) (n.eval value) (before.eval value))
include meaning

theorem holds_subtractionChainWith (value : Assignment) (a : String) {width : Int}
    (positive : 1 ≤ width) :
    holds value (subtractionChainWith carryOn a width) = true ↔
      ∀ i < width.toNat,
        value (wireName "s" i) =
          ((value (wireName a i) ^^ value (wireName "nb" i)) ^^ cameIn value i) ∧
        value (wireName "c" i) =
          handsOn (value (wireName a i)) (value (wireName "nb" i)) (cameIn value i) := by
  have before (i : Nat) : ((i + 1 : Nat) : Int) - 1 = i := by omega
  rw [subtractionChainWith, Formula.holds_append, Bool.and_eq_true, Formula.holds_pair,
    Formula.holds_wire, Formula.holds_wire, Formula.eval_sum, meaning, laterPlaces,
    Formula.holds_flatMap, List.forall_mem_map]
  constructor
  · rintro ⟨lowest, later⟩ i inside
    cases i with
    | zero => exact lowest
    | succ i =>
        have clauses := later i (List.mem_range.mpr (by omega))
        rw [Formula.holds_pair, Formula.holds_wire, Formula.holds_wire, Formula.eval_sum, meaning,
          before] at clauses
        exact clauses
  · intro each
    refine ⟨each 0 (by omega), fun i member => ?_⟩
    rw [Formula.holds_pair, Formula.holds_wire, Formula.holds_wire, Formula.eval_sum,
      meaning, before]
    exact each (i + 1) (by have := List.mem_range.mp member; omega)

/-- The clauses of a subtraction hold exactly when the scratch rows are the complement, the sums and
the carries of the chain, and the third row is that of the sums. -/
theorem holds_subtractionWith (value : Assignment) {a b c : Variable} (positive : 1 ≤ a.width)
    {x y : BitVec a.width.toNat} (first : row value a.name a.width.toNat = x)
    (second : row value b.name a.width.toNat = y) :
    holds value (subtractionWith carryOn a b c) = true ↔
      row value "nb" a.width.toNat = ~~~y ∧ row value "s" a.width.toNat = chainSum handsOn x y ∧
        row value "c" a.width.toNat = chainCarries handsOn x y ∧
        row value c.name a.width.toNat = chainSum handsOn x y := by
  have complement : (∀ i < a.width.toNat, value (wireName "nb" i) = !value (wireName b.name i)) ↔
      row value "nb" a.width.toNat = ~~~y := by
    rw [Formula.row_eq_iff] at second ⊢
    refine forall₂_congr fun i inside => ?_
    rw [getLsbD_not y inside, second i inside]
  rw [subtractionWith, Formula.holds_append, Bool.and_eq_true, Formula.holds_append,
    Bool.and_eq_true, holds_complement, complement,
    holds_subtractionChainWith meaning value a.name positive, holds_assign, and_assoc]
  refine and_congr_right fun flipped => ?_
  rw [places_iff_rows handsOn first flipped, and_assoc]
  refine and_congr_right fun sums => and_congr_right fun _ => ?_
  rw [Formula.row_eq_iff] at sums ⊢
  refine forall₂_congr fun i inside => ?_
  rw [sums i inside]

end Holds

/-! ## Carries that are lost -/

def carriedOn (x n before : Bool) : Bool :=
  (x && (n ^^ before)) || ((x ^^ n) && before)

theorem eval_borrowCarry (value : Assignment) (a n before : Term) :
    (Formula.borrowCarry a n before).eval value =
      carriedOn (a.eval value) (n.eval value) (before.eval value) :=
  rfl

section Lost
variable {width : Nat} (x y : BitVec width)

/-- The places whose carry is lost. -/
def lost : BitVec width :=
  BitVec.ofFnLE fun i => x.getLsbD i && !y.getLsbD i && chainCarry carriedOn x y i

theorem getLsbD_lost {i : Nat} (inside : i < width) :
    (lost x y).getLsbD i = (x.getLsbD i && !y.getLsbD i && chainCarry carriedOn x y i) := by
  rw [lost, BitVec.getLsbD_ofFnLE, dif_pos inside]

/-- One place: the operands and the carry into it, against the sum, the carry out of it and the
carry that is lost. -/
theorem place_balance (x y before : Bool) :
    x.toNat + 1 + before.toNat = ((x ^^ !y) ^^ before).toNat + 2 * (carriedOn x (!y) before).toNat +
      2 * (x && !y && before).toNat + y.toNat := by
  cases x <;> cases y <;> cases before <;> rfl

/-- All places below one: what is added, against the sum, the carry and all carries that were
lost. -/
theorem chain_balance {i : Nat} (inside : i ≤ width) :
    x.toNat % 2 ^ i + 2 ^ i = (chainSum carriedOn x y).toNat % 2 ^ i +
      2 ^ i * (chainCarry carriedOn x y i).toNat +
      2 * ((lost x y).toNat % 2 ^ i) + y.toNat % 2 ^ i := by
  induction i with
  | zero => simp [chainCarry, Nat.mod_one]
  | succ i ih =>
      have below := ih (by omega)
      have place :=
        congrArg (2 ^ i * ·)
          (place_balance (x.getLsbD i) (y.getLsbD i) (chainCarry carriedOn x y i))
      simp only [← getLsbD_chainSum carriedOn x y inside, ← getLsbD_lost x y inside,
        Nat.mul_add] at place
      simp only [toNat_mod_succ, chainCarry]
      rw [Nat.pow_succ]
      linarith

/-- The result is the difference less the weights of the carries that are lost. -/
theorem chainSum_carriedOn : chainSum carriedOn x y = x - y - lost x y <<< 1 := by
  have balance := chain_balance x y (Nat.le_refl width)
  simp only [Nat.mod_eq_of_lt (BitVec.isLt _)] at balance
  rw [eq_sub_iff_add_eq, eq_sub_iff_add_eq]
  apply BitVec.eq_of_toNat_eq
  rw [BitVec.toNat_add, BitVec.toNat_add, BitVec.toNat_shiftLeft, Nat.shiftLeft_eq, Nat.pow_one,
    Nat.add_mod_mod, Nat.mod_add_mod]
  have small := x.isLt
  cases carry : chainCarry carriedOn x y width with
  | true =>
      rw [carry, Bool.toNat_true] at balance
      rw [show (chainSum carriedOn x y).toNat + (lost x y).toNat * 2 + y.toNat = x.toNat by omega,
        Nat.mod_eq_of_lt small]
  | false =>
      rw [carry, Bool.toNat_false] at balance
      rw [show (chainSum carriedOn x y).toNat + (lost x y).toNat * 2 + y.toNat =
        x.toNat + 2 ^ width by omega,
        Nat.add_mod_right, Nat.mod_eq_of_lt small]

variable {x y}

/-- Until a carry is lost, the carry into a place tells whether the difference of the places below
is not negative. -/
theorem chainCarry_of_lost_none {i : Nat} (inside : i ≤ width)
    (none : (lost x y).toNat % 2 ^ i = 0) :
    chainCarry carriedOn x y i = decide (y.toNat % 2 ^ i ≤ x.toNat % 2 ^ i) := by
  have balance := chain_balance x y inside
  have small := Nat.mod_lt (chainSum carriedOn x y).toNat (Nat.two_pow_pos i)
  have smaller := Nat.mod_lt x.toNat (Nat.two_pow_pos i)
  rw [none] at balance
  cases carry : chainCarry carriedOn x y i with
  | true =>
      rw [carry] at balance
      refine (decide_eq_true ?_).symm
      simp only [Bool.toNat_true, Nat.mul_one] at balance
      omega
  | false =>
      rw [carry] at balance
      refine (decide_eq_false ?_).symm
      simp only [Bool.toNat_false, Nat.mul_zero] at balance
      omega

theorem lost_mod_eq_zero {i : Nat} (none : ∀ j < i, (lost x y).getLsbD j = false) :
    (lost x y).toNat % 2 ^ i = 0 := by
  induction i with
  | zero => exact Nat.mod_one _
  | succ i ih =>
      rw [toNat_mod_succ, ih fun j below => none j (by omega), none i (by omega)]
      rfl

/-- The first carry that is lost is that of the first place up to which the operands differ by its
weight. -/
theorem lost_iff {i : Nat} (inside : i < width) (none : ∀ j < i, (lost x y).getLsbD j = false) :
    (lost x y).getLsbD i = true ↔ y.toNat % 2 ^ (i + 1) + 2 ^ i ≤ x.toNat % 2 ^ (i + 1) := by
  have xSmall := Nat.mod_lt x.toNat (Nat.two_pow_pos i)
  have ySmall := Nat.mod_lt y.toNat (Nat.two_pow_pos i)
  rw [getLsbD_lost x y inside, chainCarry_of_lost_none (by omega) (lost_mod_eq_zero none),
    toNat_mod_succ, toNat_mod_succ]
  cases x.getLsbD i <;> cases y.getLsbD i <;> simp <;> omega

theorem forall_lost_iff :
    (∀ i, i + 1 < width → (lost x y).getLsbD i = false) ↔
      ∀ i, i + 1 < width → x.toNat % 2 ^ (i + 1) < y.toNat % 2 ^ (i + 1) + 2 ^ i := by
  constructor
  · intro none i inside
    by_contra beyond
    have here := (lost_iff (by omega) fun j below => none j (by omega)).mpr (Nat.not_lt.mp beyond)
    rw [none i inside] at here
    cases here
  · intro near i
    -- the places below have lost nothing, so that this one is decided by the operands
    induction i using Nat.strong_induction_on with
    | _ i ih =>
        intro inside
        rw [Bool.eq_false_iff, ne_eq, lost_iff (by omega) fun j below => ih j below (by omega)]
        exact Nat.not_le.mpr (near i inside)

theorem chainSum_eq_sub_iff :
    chainSum carriedOn x y = x - y ↔
      ∀ i, i + 1 < width → x.toNat % 2 ^ (i + 1) < y.toNat % 2 ^ (i + 1) + 2 ^ i := by
  rw [chainSum_carriedOn, sub_eq_self, ← forall_lost_iff]
  constructor
  · intro zero i inside
    have bit : (lost x y <<< 1).getLsbD (i + 1) = false := by
      rw [zero]
      exact BitVec.getLsbD_zero
    rwa [BitVec.getLsbD_shiftLeft, decide_eq_true inside, Bool.true_and, Nat.add_sub_cancel,
      decide_eq_false (by omega), Bool.not_false, Bool.true_and] at bit
  · intro none
    apply BitVec.eq_of_getLsbD_eq
    intro i inside
    cases i with
    | zero => simp
    | succ i =>
        rw [BitVec.getLsbD_shiftLeft, Nat.add_sub_cancel, none i inside, Bool.and_false]
        exact BitVec.getLsbD_zero.symm

end Lost

/-! ## Solutions -/

theorem singleValued_scratch {width : Nat} (n s c : BitVec width) :
    SingleValued (wires "nb" n ++ (wires "s" s ++ wires "c" c)) := by
  have sums : SingleValued (wires "s" s ++ wires "c" c) :=
    (singleValued_wires "s" s).append (singleValued_wires "c" c)
      (wires_apart (by decide) (by decide) (by decide) s c)
  refine (singleValued_wires "nb" n).append sums ?_
  intro name here there
  rw [List.map_append, List.mem_append] at there
  rcases there with there | there
  · exact wires_apart (by decide) (by decide) (by decide) n s name here there
  · exact wires_apart (by decide) (by decide) (by decide) n c name here there

section Solutions
variable {a b c : Variable} (secondWidth : b.width = a.width) (thirdWidth : c.width = a.width)
  (positive : 1 ≤ a.width) (apart : (a.bitNames ++ b.bitNames ++ c.bitNames).Nodup)
  (clear : ∀ name ∈ a.bitNames ++ b.bitNames ++ c.bitNames, ∀ i < a.width.toNat,
    name ≠ wireName "nb" i ∧ name ≠ wireName "s" i ∧ name ≠ wireName "c" i)
include secondWidth thirdWidth positive apart clear

theorem exists_subtraction (x y : BitVec a.width.toNat) :
    ∃ solution : Assignment,
      row solution a.name a.width.toNat = x ∧ row solution b.name a.width.toNat = y ∧
      holds solution (subtraction a b c) = true := by
  let z := chainSum carriedOn x y
  have unlisted : ∀ name ∈ a.bitNames ++ b.bitNames ++ c.bitNames,
      name ∉ (wires "nb" (~~~y) ++ (wires "s" z ++ wires "c" (chainCarries carriedOn x y))).map
        Prod.fst := by
    intro name declared there
    simp only [List.map_append, List.mem_append, mem_keys_wires] at there
    rcases there with ⟨i, inside, rfl⟩ | ⟨i, inside, rfl⟩ | ⟨i, inside, rfl⟩
    · exact (clear _ declared i inside).1 rfl
    · exact (clear _ declared i inside).2.1 rfl
    · exact (clear _ declared i inside).2.2 rfl
  obtain ⟨solution, first, second, result, scratch⟩ :=
    exists_beside secondWidth thirdWidth x y z apart (singleValued_scratch _ _ _) unlisted
  simp only [agrees_append, agrees_wires] at scratch
  obtain ⟨complement, sums, carries⟩ := scratch
  refine ⟨solution, first, second, ?_⟩
  rw [subtraction_eq, holds_subtractionWith eval_borrowCarry solution positive first second]
  exact ⟨complement, sums, carries, result⟩

end Solutions

theorem result_of_subtraction {solution : Assignment} {a b c : Variable} (positive : 1 ≤ a.width)
    (satisfied : holds solution (subtraction a b c) = true) :
    row solution c.name a.width.toNat =
      chainSum carriedOn (row solution a.name a.width.toNat)
        (row solution b.name a.width.toNat) := by
  rw [subtraction_eq, holds_subtractionWith eval_borrowCarry solution positive rfl rfl] at satisfied
  exact satisfied.2.2.2

/-- What a subtraction computes, at every width.  Take three variables of one positive width, all of
whose bits have names of their own, none of them that of a complement, a sum or a carry.  Whatever
the bits of the first two are, the clauses can be satisfied, and the third is always the difference
less twice the carries that are lost.  It is the difference exactly if nowhere below the highest
place the bits so far of the first exceed those of the second by the weight of the place; so the
clauses subtract at width one only.  With the carry of a full adder they would subtract at every
width.  The texts of the clauses say the same, if the variables are called by names. -/
theorem subtraction_loses_carries (a b c : Variable) (secondWidth : b.width = a.width)
    (thirdWidth : c.width = a.width) (positive : 1 ≤ a.width)
    (apart : (a.bitNames ++ b.bitNames ++ c.bitNames).Nodup)
    (clear : ∀ name ∈ a.bitNames ++ b.bitNames ++ c.bitNames, ∀ i < a.width.toNat,
      name ≠ wireName "nb" i ∧ name ≠ wireName "s" i ∧ name ≠ wireName "c" i) :
    ∃ clauses, lowerSubtraction [a, b, c] = .ok clauses ∧
      (∀ x y : BitVec a.width.toNat, ∃ solution : Assignment,
        row solution a.name a.width.toNat = x ∧ row solution b.name a.width.toNat = y ∧
        holds solution clauses = true) ∧
      (∀ (solution : Assignment) (x y : BitVec a.width.toNat), holds solution clauses = true →
        row solution a.name a.width.toNat = x → row solution b.name a.width.toNat = y →
        row solution c.name a.width.toNat = x - y - lost x y <<< 1 ∧
        (row solution c.name a.width.toNat = x - y ↔
          ∀ i, i + 1 < a.width.toNat → x.toNat % 2 ^ (i + 1) < y.toNat % 2 ^ (i + 1) + 2 ^ i)) ∧
      ((∀ solution : Assignment, holds solution clauses = true → row solution c.name a.width.toNat =
        row solution a.name a.width.toNat - row solution b.name a.width.toNat) ↔ a.width = 1) ∧
      (∀ solution : Assignment, holds solution (subtractionWith Term.carry a b c) = true →
        row solution c.name a.width.toNat =
          row solution a.name a.width.toNat - row solution b.name a.width.toNat) ∧
      (IsName a.name → IsName b.name → IsName c.name → ∀ value : Assignment, ∀ clause ∈ clauses,
        holdsText value clause.text = clause.holds value) := by
  have solvable := exists_subtraction secondWidth thirdWidth positive apart clear
  refine ⟨subtraction a b c, rfl, solvable, ?_, ?_, ?_, ?_⟩
  · rintro solution x y satisfied rfl rfl
    rw [result_of_subtraction positive satisfied]
    exact ⟨chainSum_carriedOn _ _, chainSum_eq_sub_iff⟩
  · constructor
    · intro subtracts
      by_contra wide
      -- one less zero: the lowest place loses its carry
      obtain ⟨solution, first, second, satisfied⟩ := solvable 1 0
      have difference := subtracts solution satisfied
      rw [result_of_subtraction positive satisfied, chainSum_eq_sub_iff, first,
        second] at difference
      have lowest := difference 0 (by omega)
      simp [Nat.mod_eq_of_lt (Nat.one_lt_two_pow (by omega : a.width.toNat ≠ 0))] at lowest
    · intro narrow solution satisfied
      rw [result_of_subtraction positive satisfied, chainSum_eq_sub_iff]
      intro i inside
      omega
  · intro solution satisfied
    have meaning (value : Assignment) (a n before : Term) :
        (Term.carry a n before).eval value =
          handedOn (a.eval value) (n.eval value) (before.eval value) := rfl
    rw [((holds_subtractionWith meaning solution positive rfl rfl).mp satisfied).2.2.2,
      chainSum_handedOn]
  · intro firstName secondName thirdName value clause member
    exact Formula.holdsText_text
      (bracketed_subtraction firstName secondName thirdName clause member) value

/-- Variables of four bits that are called as complements, sums and carries are, but of places
beyond the fourth.  Eleven less seven loses no carry. -/
theorem subtraction_loses_carries_none :
    let x : Variable := { name := "nb1", width := 4 }
    let y : Variable := { name := "s1", width := 4 }
    let z : Variable := { name := "c1", width := 4 }
    (x.bitNames ++ y.bitNames ++ z.bitNames).Nodup ∧
      (∀ name ∈ x.bitNames ++ y.bitNames ++ z.bitNames, ∀ i < x.width.toNat,
        name ≠ wireName "nb" i ∧ name ≠ wireName "s" i ∧ name ≠ wireName "c" i) ∧
      ∃ clauses, lowerSubtraction [x, y, z] = .ok clauses ∧
        ∃ solution : Assignment, holds solution clauses = true ∧ row solution "nb1" 4 = 11 ∧
          row solution "s1" 4 = 7 ∧
          row solution "c1" 4 = 4 := by
  intro x y z
  have apart : (x.bitNames ++ y.bitNames ++ z.bitNames).Nodup := by decide
  have clear : ∀ name ∈ x.bitNames ++ y.bitNames ++ z.bitNames, ∀ i < x.width.toNat,
      name ≠ wireName "nb" i ∧ name ≠ wireName "s" i ∧ name ≠ wireName "c" i := by decide
  obtain ⟨clauses, lowered, solvable, results, _⟩ :=
    subtraction_loses_carries x y z rfl rfl (by decide) apart clear
  obtain ⟨solution, first, second, satisfied⟩ := solvable (BitVec.ofNat 4 11) (BitVec.ofNat 4 7)
  have near : ∀ i, i + 1 < 4 → (11 : BitVec 4).toNat % 2 ^ (i + 1) <
      (7 : BitVec 4).toNat % 2 ^ (i + 1) + 2 ^ i := by
    intro i inside
    obtain rfl | rfl | rfl : i = 0 ∨ i = 1 ∨ i = 2 := by omega
    all_goals decide
  exact ⟨apart, clear, clauses, lowered, solution, satisfied, first, second,
    ((results solution _ _ satisfied first second).2.mpr near).trans (by decide)⟩

/-- At width two the clauses make three of one less zero. -/
theorem one_less_zero_wrong :
    let x : Variable := { name := "x", width := 2 }
    let y : Variable := { name := "y", width := 2 }
    let z : Variable := { name := "z", width := 2 }
    (x.bitNames ++ y.bitNames ++ z.bitNames).Nodup ∧
      (∀ name ∈ x.bitNames ++ y.bitNames ++ z.bitNames, ∀ i < x.width.toNat,
        name ≠ wireName "nb" i ∧ name ≠ wireName "s" i ∧ name ≠ wireName "c" i) ∧
      ∃ clauses, lowerSubtraction [x, y, z] = .ok clauses ∧
        ∃ solution : Assignment, holds solution clauses = true ∧ row solution "x" 2 = 1 ∧
          row solution "y" 2 = 0 ∧
          row solution "z" 2 = 3 ∧ row solution "z" 2 ≠
            row solution "x" 2 - row solution "y" 2 := by
  intro x y z
  refine ⟨by decide, by decide, subtraction x y z, rfl, ?_⟩
  exact ⟨fun name => decide (name ∈ ["x0", "nb0", "nb1", "s0", "s1", "z0", "z1"]), by decide⟩

end Zkvm.Circuit
