import Zkvm.Proofs.Contract.Nibbles

/-!
# Differences in nibbles

A nibble of a difference adds the complement of its second operand.  The lowest one adds one more,
and every other one adds what the link hands to it: the borrow of the nibble below, where the sum
with a complement needs the carry, which is the flipped borrow.  So a single nibble is subtracted,
but in a longer word the lowest bit of the second nibble is wrong for all operands.
-/
set_option autoImplicit false

namespace Zkvm.Contract.Instruction

open Formula (IsName Wordy Ripples holds ofRows wireName HoldsOpened HoldsBeside addWithCarry
  Supplies)

def differenceInputs (n : Nat) : List String :=
  operandNames n ++ [wireName "bi" n]

/-- The assignment satisfies the nibbles, with two words as operands.  The name `k` is read by every
nibble as its own. -/
structure SubtractsEach (last : Nat) (x y : BitVec (4 * (last + 1))) (value : Assignment)
    (own : Nat → Bool) :
    Prop where
  left : nibbleRow value "a" (last + 1) = x
  right : nibbleRow value "b" (last + 1) = y
  nibbles : ∀ n < last + 1,
    HoldsOpened (differenceInputs n) (Function.update value "k" (own n))
      (subNibble n).contract.constraints

/-- The assignment satisfies the nibbles and their links. -/
structure Subtracts (last : Nat) (x y : BitVec (4 * (last + 1))) (value : Assignment)
    (own : Nat → Bool) : Prop extends SubtractsEach last x y value own where
  links : ∀ n < last,
    HoldsOpened (linkInputs "bo" "bp" n) value
      (borrowLink n (n + 1 : Nat) "sub").contract.constraints

/-- Every nibble but the lowest is handed the flipped borrow of the one below. -/
def FlippedLinks (last : Nat) (value : Assignment) : Prop :=
  ∀ n < last, value (wireName "bi" (n + 1 : Nat)) = !value (wireName "bo" n)

/-! ## One nibble -/

theorem supplies_borrowInput (n : Nat) : Supplies [wireName "bi" n] (borrowInput n) := by
  have named : IsName (wireName "bi" n) := (by decide : IsName "bi").wire n
  rw [borrowInput]
  split
  · exact Formula.supplies_nil (List.forall_mem_singleton.mpr named)
  · exact Formula.supplies_fix named false

theorem not_mem_differenceInputs (n : Nat) : "k" ∉ differenceInputs n := by
  intro member
  rcases List.mem_append.mp member with operand | borrow
  · obtain ⟨i, _, pair⟩ := List.mem_flatMap.mp operand
    rcases List.mem_pair.mp pair with same | same
    · exact absurd ((congrArg Formula.wordOf same).trans (wordOf_bitName (by decide) n i))
        (by decide)
    · exact absurd ((congrArg Formula.wordOf same).trans (wordOf_bitName (by decide) n i))
        (by decide)
  · have same := congrArg Formula.wordOf (List.mem_singleton.mp borrow)
    exact absurd (same.trans (Formula.wordOf_wireName (by decide) n)) (by decide)

def differenceClauses (n : Nat) : List Clause :=
  operandInputs n ++ complement n ++ [increment n] ++ borrowInput n ++ subtractionChain n

def incomingTerm (n : Nat) : Term :=
  if (n : Int) = 0 then .var "k" else .wire "bi" n

theorem bracketed_incomingTerm (n : Nat) : (incomingTerm n).Bracketed := by
  rw [incomingTerm]
  split
  · exact .var (by decide)
  · exact Term.bracketed_wire (by decide) n

theorem bracketed_differenceClauses (n : Nat) :
    ∀ clause ∈ differenceClauses n, clause.Bracketed := by
  have flips : ∀ clause ∈ complement n, clause.Bracketed :=
    List.forall_mem_map.mpr fun i _ =>
      ⟨isName_bitName (by decide) n i, (bracketed_bit (by decide) n i).flipped⟩
  have lowest : ∀ clause ∈ fullAdder "v" "d" "w" n 0 (incomingTerm n), clause.Bracketed :=
    bracketed_fullAdder (by decide) (by decide) (by decide) n 0 (bracketed_incomingTerm n)
  have upper : ∀ clause ∈ upperAdders "v" "d" "w" n, clause.Bracketed :=
    bracketed_upperAdders (by decide) (by decide) (by decide) n
  have borrow : (Clause.wire "bo" n (bit "w" n 3).flipped).Bracketed :=
    Clause.bracketed_wire (by decide) n (bracketed_bit (by decide) n 3).flipped
  have adders := List.forall_mem_append.mpr ⟨List.forall_mem_append.mpr ⟨lowest, upper⟩,
    List.forall_mem_singleton.mpr borrow⟩
  have increments : ∀ clause ∈ [increment n], clause.Bracketed :=
    List.forall_mem_singleton.mpr ⟨by decide, .bit _⟩
  have inputs := List.forall_mem_append.mpr ⟨(supplies_operandInputs n).bracketed, flips⟩
  have before := List.forall_mem_append.mpr
    ⟨List.forall_mem_append.mpr ⟨inputs, increments⟩, (supplies_borrowInput n).bracketed⟩
  exact List.forall_mem_append.mpr ⟨before, adders⟩

section Own
variable (value : Assignment) (own : Bool) (n : Nat)

theorem own_bit {word : String} (wordy : Wordy word) (other : word ≠ "k") (i : Nat) :
    Function.update value "k" own (bitName word n i) = value (bitName word n i) :=
  Formula.update_of_word (by rwa [wordOf_bitName wordy]) own

theorem own_wire {word : String} (wordy : Wordy word) (other : word ≠ "k") :
    Function.update value "k" own (wireName word n) = value (wireName word n) :=
  Formula.update_of_word (by rwa [Formula.wordOf_wireName wordy]) own

end Own

/-- What is carried into a nibble whose own name is right. -/
def incoming (value : Assignment) (n : Nat) : Bool :=
  if n = 0 then true else value (wireName "bi" n)

theorem eval_incomingTerm (value : Assignment) (n : Nat) :
    (incomingTerm n).eval (Function.update value "k" (decide (n = 0))) = incoming value n := by
  by_cases zero : n = 0
  · subst zero
    simp [incomingTerm, incoming, Term.eval]
  · have high : ¬ (n : Int) = 0 := by omega
    rw [incomingTerm, if_neg high, incoming, if_neg zero]
    exact own_wire value _ n (by decide) (by decide)

theorem holds_complement (value : Assignment) (own : Bool) (n : Nat) :
    holds (Function.update value "k" own) (complement n) = true ↔
      ∀ i < 4, value (bitName "v" n i) = !value (bitName "b" n i) := by
  rw [complement, Formula.holds_map]
  simp only [List.mem_range]
  refine forall₂_congr fun i _ => ?_
  rw [Clause.holds, beq_iff_eq, Term.eval_flipped, bit, Term.eval,
    own_bit value own n (by decide) (by decide), own_bit value own n (by decide) (by decide)]

theorem holds_subtractionChain (value : Assignment) (own : Bool) (n : Nat) :
    holds (Function.update value "k" own) (subtractionChain n) = true ↔
      Ripples 4 (fun i => value (bitName "a" n i)) (fun i => value (bitName "v" n i))
        (carriesInto value "w" n ((incomingTerm n).eval (Function.update value "k" own)))
        (fun i => value (bitName "d" n i)) ∧
      value (wireName "bo" n) = !value (bitName "w" n 3) := by
  have carries (before : Bool) :
      carriesInto (Function.update value "k" own) "w" n before =
        carriesInto value "w" n before := by
    funext i
    cases i with
    | zero => rfl
    | succ i => exact own_bit value own n (by decide) (by decide) i
  have shape : subtractionChain n =
      fullAdder "v" "d" "w" n 0 (incomingTerm n) ++ upperAdders "v" "d" "w" n ++
      [.wire "bo" n (bit "w" n 3).flipped] := rfl
  have borrow : holds (Function.update value "k" own) [.wire "bo" n (bit "w" n 3).flipped] = true ↔
      value (wireName "bo" n) = !value (bitName "w" n 3) := by
    rw [Formula.holds_singleton, Formula.holds_wire, Term.eval_flipped, bit, Term.eval,
      own_wire value own n (by decide) (by decide), own_bit value own n (by decide) (by decide)]
  rw [shape, Formula.holds_append, Bool.and_eq_true, holds_adders, borrow, carries]
  simp only [own_bit value own n (by decide : Wordy "a") (by decide),
    own_bit value own n (by decide : Wordy "v") (by decide),
    own_bit value own n (by decide : Wordy "d") (by decide)]

theorem holds_subNibble (value : Assignment) (own : Bool) (n : Nat) :
    HoldsOpened (differenceInputs n) (Function.update value "k" own)
      (subNibble n).contract.constraints ↔
      own = decide (n = 0) ∧
      (∀ i < 4, value (bitName "v" n i) = !value (bitName "b" n i)) ∧
      Ripples 4 (fun i => value (bitName "a" n i)) (fun i => value (bitName "v" n i))
        (carriesInto value "w" n (incoming value n)) (fun i => value (bitName "d" n i)) ∧
      value (wireName "bo" n) = !value (bitName "w" n 3) := by
  have named : ∀ name ∈ differenceInputs n, IsName name :=
    List.forall_mem_append.mpr ⟨(supplies_operandInputs n).named, (supplies_borrowInput n).named⟩
  have operands :
      HoldsBeside (differenceInputs n) (Function.update value "k" own) (operandInputs n) :=
    (supplies_operandInputs n).holdsBeside (List.subset_append_left _ _)
  have borrow : HoldsBeside (differenceInputs n) (Function.update value "k" own) (borrowInput n) :=
    (supplies_borrowInput n).holdsBeside (List.subset_append_right _ _)
  have increments : HoldsBeside (differenceInputs n) (Function.update value "k" own) [increment n] ↔
      own = decide (n = 0) := by
    rw [increment, Formula.holdsBeside_fix (not_mem_differenceInputs n), Function.update_self]
    simp only [Int.natCast_eq_zero]
  have flipped :
      HoldsBeside (differenceInputs n) (Function.update value "k" own) (complement n) ↔ _ :=
    (Formula.holdsBeside_iff_holds rfl).trans (holds_complement value own n)
  have adders :
      HoldsBeside (differenceInputs n) (Function.update value "k" own) (subtractionChain n) ↔ _ :=
    (Formula.holdsBeside_iff_holds rfl).trans (holds_subtractionChain value own n)
  refine (Formula.holdsOpened_iff (bracketed_differenceClauses n) named _).trans ?_
  rw [differenceClauses, Formula.holdsBeside_append, Formula.holdsBeside_append,
    Formula.holdsBeside_append, Formula.holdsBeside_append, flipped, increments, adders]
  constructor
  · rintro ⟨⟨⟨⟨_, flips⟩, rfl⟩, _⟩, chain⟩
    rw [eval_incomingTerm] at chain
    exact ⟨rfl, flips, chain⟩
  · rintro ⟨rfl, flips, chain⟩
    rw [← eval_incomingTerm] at chain
    exact ⟨⟨⟨⟨operands, flips⟩, rfl⟩, borrow⟩, chain⟩

/-! ## Words -/

def differenceCarries (value : Assignment) (n : Nat) : Nat → Bool :=
  carriesInto value "w" n (incoming value n)

section Each
variable {last : Nat} {x y : BitVec (4 * (last + 1))} {value : Assignment} {own : Nat → Bool}
  (each : SubtractsEach last x y value own)
include each

theorem SubtractsEach.borrow_eq {n : Nat} (inside : n < last + 1) :
    value (wireName "bo" n) = !value (bitName "w" n 3) :=
  ((holds_subNibble value (own n) n).mp (each.nibbles n inside)).2.2.2

theorem SubtractsEach.ripples {n : Nat} (inside : n < last + 1) :
    Ripples 4 (fun i => x.getLsbD (4 * n + i)) (fun i => (~~~y).getLsbD (4 * n + i))
      (differenceCarries value n)
      (fun i => (nibbleRow value "d" (last + 1)).getLsbD (4 * n + i)) := by
  obtain ⟨_, flips, chain, _⟩ := (holds_subNibble value (own n) n).mp (each.nibbles n inside)
  refine chain.congr ?_ ?_ (fun _ _ => rfl) ?_
  · intro i small
    exact nibbleRow_eq_iff.mp each.left n inside i small
  · intro i small
    have within : 4 * n + i < 4 * (last + 1) := by omega
    rw [flips i small, BitVec.getLsbD_not, decide_eq_true within, Bool.true_and,
      nibbleRow_eq_iff.mp each.right n inside i small]
  · intro i small
    exact (getLsbD_nibbleRow value "d" inside small).symm

/-- With flipped borrows the nibbles subtract words of every size. -/
theorem SubtractsEach.sub_of_flipped (flipped : FlippedLinks last value) :
    nibbleRow value "d" (last + 1) = x - y := by
  -- flipped twice, the borrow is the carry again, and the chains of the nibbles are one
  have linked :
      ∀ n, n + 1 < last + 1 → differenceCarries value (n + 1) 0 = differenceCarries value n 4 := by
    intro n inside
    have borrowed : value (wireName "bi" (n + 1 : Nat)) = value (bitName "w" n 3) := by
      rw [flipped n (by omega), each.borrow_eq (by omega), Bool.not_not]
    exact borrowed
  have chain := Formula.ripples_of_nibbles linked fun n inside => each.ripples inside
  apply BitVec.eq_of_getLsbD_eq
  intro place inside
  rw [chain.sum_eq inside, ← Formula.addWithCarry_not]
  rfl

theorem SubtractsEach.nibble_eq {n : Nat} (inside : n < last + 1) :
    nibbleOf (nibbleRow value "d" (last + 1)) n =
        addWithCarry (nibbleOf x n) (~~~nibbleOf y n) (incoming value n) ∧
      value (wireName "bo" n) =
        !BitVec.carry 4 (nibbleOf x n) (~~~nibbleOf y n) (incoming value n) := by
  have flips : ∀ i < 4, (~~~y).getLsbD (4 * n + i) = (~~~nibbleOf y n).getLsbD i := by
    intro i small
    have within : 4 * n + i < 4 * (last + 1) := by omega
    rw [BitVec.getLsbD_not, BitVec.getLsbD_not, getLsbD_nibbleOf y n small, decide_eq_true within,
      decide_eq_true small]
  have chain :
      Ripples 4 (nibbleOf x n).getLsbD (~~~nibbleOf y n).getLsbD (differenceCarries value n)
        (nibbleOf (nibbleRow value "d" (last + 1)) n).getLsbD := by
    refine (each.ripples inside).congr ?_ flips (fun _ _ => rfl) ?_
    · exact fun i small => (getLsbD_nibbleOf x n small).symm
    · exact fun i small => (getLsbD_nibbleOf _ n small).symm
  constructor
  · apply BitVec.eq_of_getLsbD_eq
    intro i small
    exact chain.sum_eq small
  · rw [each.borrow_eq inside]
    exact congrArg not (chain.carry_eq (Nat.le_refl 4))

end Each

/-! ## Borrows that are added -/

/-- What the nibbles of a difference are handed: one for the lowest, and the borrow of the nibble
below for the others.  A nibble borrows if its first operand with what it is handed does not exceed
the second. -/
def handed {width : Nat} (x y : BitVec width) : Nat → Bool
  | 0 => true
  | n + 1 => decide ((nibbleOf x n).toNat + (handed x y n).toNat ≤ (nibbleOf y n).toNat)

theorem not_carry_eq (a b : BitVec 4) (before : Bool) :
    (!BitVec.carry 4 a (~~~b) before) = decide (a.toNat + before.toNat ≤ b.toNat) := by
  have small := b.isLt
  rw [BitVec.carry_width, BitVec.toNat_not, ← decide_not]
  apply decide_eq_decide.mpr
  omega

theorem addWithCarry_not_toNat (a b : BitVec 4) (before : Bool) :
    (addWithCarry a (~~~b) before).toNat = (a.toNat + (15 - b.toNat) + before.toNat) % 16 := by
  rw [addWithCarry, BitVec.toNat_add, BitVec.toNat_add, BitVec.toNat_not]
  cases before <;> simp

section Linked
variable {last : Nat} {x y : BitVec (4 * (last + 1))} {value : Assignment} {own : Nat → Bool}
  (subtracts : Subtracts last x y value own)
include subtracts

theorem Subtracts.link_eq {n : Nat} (inside : n < last) :
    value (wireName "bi" (n + 1 : Nat)) = value (wireName "bo" n) :=
  (holds_link (by decide) (by decide) (by decide) n "sub" value).mp (subtracts.links n inside)

theorem Subtracts.incoming_eq {n : Nat} (inside : n < last + 1) :
    incoming value n = handed x y n := by
  -- what a nibble is handed decides whether it borrows, and so what the next one is handed
  induction n with
  | zero => rfl
  | succ n ih =>
      have borrow := (subtracts.nibble_eq (by omega : n < last + 1)).2
      rw [ih (by omega), not_carry_eq] at borrow
      exact (subtracts.link_eq (by omega)).trans borrow

/-- The lowest bit of the second nibble is wrong: it is added to the flipped carry out of the lowest
nibble. -/
theorem Subtracts.second_wrong (long : 0 < last) :
    (nibbleRow value "d" (last + 1)).getLsbD 4 = !(x - y).getLsbD 4 := by
  -- the lowest nibble is that of the right difference, so its carry is the right one before it is
  -- flipped
  have lowest : Ripples 4 x.getLsbD (~~~y).getLsbD (differenceCarries value 0)
      (nibbleRow value "d" (last + 1)).getLsbD := by
    have chain := subtracts.ripples (by omega : 0 < last + 1)
    simpa only [Nat.mul_zero, Nat.zero_add] using chain
  have carried : value (bitName "w" (0 : Nat) 3) = BitVec.carry 4 x (~~~y) true :=
    lowest.carry_eq (Nat.le_refl 4)
  have handedOver : differenceCarries value 1 0 = !BitVec.carry 4 x (~~~y) true := by
    have borrow : differenceCarries value 1 0 = value (wireName "bi" (0 + 1 : Nat)) := rfl
    rw [borrow, subtracts.link_eq long, subtracts.borrow_eq (by omega), carried]
  have second : (nibbleRow value "d" (last + 1)).getLsbD 4 =
      ((x.getLsbD 4 ^^ (~~~y).getLsbD 4) ^^ differenceCarries value 1 0) :=
    (subtracts.ripples (by omega : 1 < last + 1)).sums 0 (by decide)
  rw [second, handedOver, ← Formula.addWithCarry_not, Formula.getLsbD_addWithCarry (by omega),
    Bool.xor_not]

end Linked

/-! ## Assignments of differences -/

/-- What the nibbles would be handed by links that flip the borrow. -/
def restored {width : Nat} (x y : BitVec width) : Nat → Bool
  | 0 => true
  | n + 1 => !decide ((nibbleOf x n).toNat + (restored x y n).toNat ≤ (nibbleOf y n).toNat)

def differenceRows {width : Nat} (x y : BitVec width) (before : Nat → Bool) (word : String)
    (number : Nat) : Bool :=
  let n := number / 10
  let i := number % 10
  if word = "a" then x.getLsbD (4 * n + i)
  else if word = "b" then y.getLsbD (4 * n + i)
  else if word = "v" then !y.getLsbD (4 * n + i)
  else if word = "d" then (addWithCarry (nibbleOf x n) (~~~nibbleOf y n) (before n)).getLsbD i
  else if word = "w" then BitVec.carry (i + 1) (nibbleOf x n) (~~~nibbleOf y n) (before n)
  else if word = "bi" then before number
  else decide ((nibbleOf x number).toNat + (before number).toNat ≤ (nibbleOf y number).toNat)

section Rows
variable {width : Nat} (x y : BitVec width) (before : Nat → Bool) (n : Nat) {i : Nat}
  (small : i < 4)

theorem differenceRows_in : ofRows (differenceRows x y before) (wireName "bi" n) = before n :=
  Formula.ofRows_wireName (by decide) n _

theorem differenceRows_out : ofRows (differenceRows x y before) (wireName "bo" n) =
    decide ((nibbleOf x n).toNat + (before n).toNat ≤ (nibbleOf y n).toNat) :=
  Formula.ofRows_wireName (by decide) n _

include small

theorem differenceRows_left :
    ofRows (differenceRows x y before) (bitName "a" n i) = x.getLsbD (4 * n + i) :=
  ofRows_bit (by decide) (fun n i => x.getLsbD (4 * n + i)) (fun _ => rfl) n small

theorem differenceRows_right :
    ofRows (differenceRows x y before) (bitName "b" n i) = y.getLsbD (4 * n + i) :=
  ofRows_bit (by decide) (fun n i => y.getLsbD (4 * n + i)) (fun _ => rfl) n small

theorem differenceRows_flipped :
    ofRows (differenceRows x y before) (bitName "v" n i) = !y.getLsbD (4 * n + i) :=
  ofRows_bit (by decide) (fun n i => !y.getLsbD (4 * n + i)) (fun _ => rfl) n small

theorem differenceRows_difference : ofRows (differenceRows x y before) (bitName "d" n i) =
    (addWithCarry (nibbleOf x n) (~~~nibbleOf y n) (before n)).getLsbD i :=
  ofRows_bit (by decide)
    (fun n i => (addWithCarry (nibbleOf x n) (~~~nibbleOf y n) (before n)).getLsbD i)
    (fun _ => rfl) n small

theorem differenceRows_carry : ofRows (differenceRows x y before) (bitName "w" n i) =
    BitVec.carry (i + 1) (nibbleOf x n) (~~~nibbleOf y n) (before n) :=
  ofRows_bit (by decide)
    (fun n i => BitVec.carry (i + 1) (nibbleOf x n) (~~~nibbleOf y n) (before n))
    (fun _ => rfl) n small

end Rows

section Assignments
variable {before : Nat → Bool} (start : before 0 = true)
include start

theorem incoming_differenceRows {width : Nat} (x y : BitVec width) (n : Nat) :
    incoming (ofRows (differenceRows x y before)) n = before n := by
  cases n with
  | zero => rw [incoming, if_pos rfl, start]
  | succ n => rw [incoming, if_neg (Nat.succ_ne_zero n), differenceRows_in]

theorem ripples_differenceRows {width : Nat} (x y : BitVec width) (n : Nat) :
    Ripples 4 (fun i => ofRows (differenceRows x y before) (bitName "a" n i))
      (fun i => ofRows (differenceRows x y before) (bitName "v" n i))
      (differenceCarries (ofRows (differenceRows x y before)) n)
      (fun i => ofRows (differenceRows x y before) (bitName "d" n i)) := by
  refine (Formula.ripples_word (nibbleOf x n) (~~~nibbleOf y n) (before n)).congr ?_ ?_ ?_ ?_
  · intro i small
    rw [differenceRows_left x y before n small, getLsbD_nibbleOf x n small]
  · intro i small
    rw [differenceRows_flipped x y before n small, BitVec.getLsbD_not, decide_eq_true small,
      Bool.true_and, getLsbD_nibbleOf y n small]
  · intro i small
    cases i with
    | zero => exact BitVec.carry_zero.trans (incoming_differenceRows start x y n).symm
    | succ i => exact (differenceRows_carry x y before n small).symm
  · intro i small
    exact (differenceRows_difference x y before n small).symm

theorem subtractsEach_differenceRows (last : Nat) (x y : BitVec (4 * (last + 1))) :
    SubtractsEach last x y (ofRows (differenceRows x y before)) fun n => decide (n = 0) where
  left := nibbleRow_eq_iff.mpr fun n _ _ small => differenceRows_left x y before n small
  right := nibbleRow_eq_iff.mpr fun n _ _ small => differenceRows_right x y before n small
  nibbles n _ := by
    refine (holds_subNibble _ _ n).mpr ⟨rfl, ?_, ripples_differenceRows start x y n, ?_⟩
    · intro i small
      rw [differenceRows_flipped x y before n small, differenceRows_right x y before n small]
    · rw [differenceRows_out, differenceRows_carry x y before n (by decide), not_carry_eq]

end Assignments

theorem subtracts_handed (last : Nat) (x y : BitVec (4 * (last + 1))) :
    Subtracts last x y (ofRows (differenceRows x y (handed x y))) fun n => decide (n = 0) where
  toSubtractsEach := subtractsEach_differenceRows rfl last x y
  links n _ := by
    refine (holds_link (by decide) (by decide) (by decide) n "sub" _).mpr ?_
    rw [differenceRows_in, differenceRows_out, handed]

theorem flipped_restored (last : Nat) (x y : BitVec (4 * (last + 1))) :
    FlippedLinks last (ofRows (differenceRows x y (restored x y))) := by
  intro n _
  rw [differenceRows_in, differenceRows_out, restored]

/-- What the nibbles of a difference and their links compute.  They can be satisfied for all
operands; each nibble is the difference of its operands, less one and more by what it is handed; and
this is the difference of the words only where there is a single nibble.  With links that flip the
borrow, the nibbles can be satisfied as well, and are the difference for words of every size. -/
theorem nibbles_subtract (last : Nat) (x y : BitVec (4 * (last + 1))) :
    (∃ value own, Subtracts last x y value own) ∧
    (∀ value own, Subtracts last x y value own →
      (∀ n ≤ last, (nibbleOf (nibbleRow value "d" (last + 1)) n).toNat =
        ((nibbleOf x n).toNat + (15 - (nibbleOf y n).toNat) + (handed x y n).toNat) % 16) ∧
      (nibbleRow value "d" (last + 1) = x - y ↔ last = 0)) ∧
    (∃ value own, SubtractsEach last x y value own ∧ FlippedLinks last value) ∧
    ∀ value own, SubtractsEach last x y value own → FlippedLinks last value →
      nibbleRow value "d" (last + 1) = x - y := by
  refine ⟨⟨_, _, subtracts_handed last x y⟩, ?_,
    ⟨_, _, subtractsEach_differenceRows rfl last x y, flipped_restored last x y⟩,
    fun value own each => each.sub_of_flipped⟩
  intro value own subtracts
  constructor
  · intro n inside
    have within : n < last + 1 := by omega
    rw [(subtracts.nibble_eq within).1, addWithCarry_not_toNat, subtracts.incoming_eq within]
  · constructor
    · intro right
      by_contra long
      have wrong := subtracts.second_wrong (by omega)
      rw [right] at wrong
      exact absurd wrong.symm (Bool.not_ne_self _)
    · rintro rfl
      exact subtracts.sub_of_flipped fun n inside => absurd inside (by omega)

/-- Two nibbles subtract zero from zero with a result that is not zero. -/
theorem zero_difference_wrong :
    ∃ value own, Subtracts 1 0 0 value own ∧ nibbleRow value "d" 2 = 240 ∧
      (240 : BitVec 8) ≠ 0 - 0 := by
  let zero : BitVec (4 * (1 + 1)) := 0
  have bits : ∀ n < 2, ∀ i < 4, (addWithCarry (nibbleOf zero n) (~~~nibbleOf zero n)
      (handed zero zero n)).getLsbD i = (240 : BitVec (4 * 2)).getLsbD (4 * n + i) := by decide
  refine ⟨_, _, subtracts_handed 1 zero zero, nibbleRow_eq_iff.mpr ?_, by decide⟩
  intro n inside i small
  rw [differenceRows_difference zero zero (handed zero zero) n small, bits n inside i small]

end Zkvm.Contract.Instruction
