import Zkvm.Proofs.Formula.Row

/-!
# Carries that ripple

A chain of full adders over two rows of bits, given by its sums and by the carries into its places.
Over the bits of two words it is their sum.  A chain of several nibbles is one chain for each
nibble, where the carry out of a nibble is the carry into the next.
-/
set_option autoImplicit false

namespace Zkvm.Formula

def handedOn (x y carry : Bool) : Bool :=
  (x && y) || ((x ^^ y) && carry)

structure Ripples (width : Nat) (x y carry sum : Nat → Bool) : Prop where
  sums : ∀ i < width, sum i = ((x i ^^ y i) ^^ carry i)
  carries : ∀ i < width, carry (i + 1) = handedOn (x i) (y i) (carry i)

theorem Ripples.congr {width : Nat} {x x' y y' carry carry' sum sum' : Nat → Bool}
    (chain : Ripples width x y carry sum) (left : ∀ i < width, x i = x' i)
    (right : ∀ i < width, y i = y' i) (carries : ∀ i ≤ width, carry i = carry' i)
    (sums : ∀ i < width, sum i = sum' i) :
    Ripples width x' y' carry' sum' where
  sums i inside := by
    rw [← sums i inside, ← left i inside, ← right i inside, ← carries i (by omega)]
    exact chain.sums i inside
  carries i inside := by
    rw [← left i inside, ← right i inside, ← carries i (by omega), ← carries (i + 1) inside]
    exact chain.carries i inside

/-! ## Words -/

section Words
variable {width : Nat} {x y : BitVec width} {carry sum : Nat → Bool}

def addWithCarry (x y : BitVec width) (carry : Bool) : BitVec width :=
  x + y + (BitVec.ofBool carry).setWidth width

theorem carry_succ_eq (i : Nat) (first : Bool) :
    BitVec.carry (i + 1) x y first =
      handedOn (x.getLsbD i) (y.getLsbD i) (BitVec.carry i x y first) := by
  rw [BitVec.carry_succ, handedOn, carry_eq_atLeastTwo]

/-- The carries of a chain over the lower bits of two words. -/
theorem Ripples.carry_eq {places : Nat} (chain : Ripples places x.getLsbD y.getLsbD carry sum)
    {i : Nat} (inside : i ≤ places) : carry i = BitVec.carry i x y (carry 0) := by
  induction i with
  | zero => rw [BitVec.carry_zero]
  | succ i ih => rw [chain.carries i inside, ih (by omega), carry_succ_eq]

theorem getLsbD_addWithCarry {i : Nat} (inside : i < width) (first : Bool) :
    (addWithCarry x y first).getLsbD i =
      ((x.getLsbD i ^^ y.getLsbD i) ^^ BitVec.carry i x y first) := by
  rw [addWithCarry, BitVec.getLsbD_add_add_bool inside, Bool.xor_assoc]

theorem Ripples.sum_eq (chain : Ripples width x.getLsbD y.getLsbD carry sum) {i : Nat}
    (inside : i < width) :
    sum i = (addWithCarry x y (carry 0)).getLsbD i := by
  rw [chain.sums i inside, chain.carry_eq (Nat.le_of_lt inside), getLsbD_addWithCarry inside]

/-- The carries and the sum of two words make a chain. -/
theorem ripples_word (x y : BitVec width) (first : Bool) :
    Ripples width x.getLsbD y.getLsbD (fun i => BitVec.carry i x y first)
      (addWithCarry x y first).getLsbD where
  sums _ inside := getLsbD_addWithCarry inside first
  carries i _ := carry_succ_eq i first

end Words

@[simp]
theorem addWithCarry_false {width : Nat} (x y : BitVec width) : addWithCarry x y false = x + y := by
  simp [addWithCarry]

theorem addWithCarry_not {width : Nat} (x y : BitVec width) :
    addWithCarry x (~~~y) true = x - y := by
  -- the carry that comes in is the one that a complement lacks of the negated word
  rw [addWithCarry, BitVec.sub_eq_add_neg, BitVec.neg_eq_not_add, BitVec.add_assoc]
  congr 2
  apply BitVec.eq_of_toNat_eq
  simp

/-! ## Nibbles -/

section Nibbles
variable {count : Nat} {x y sum : Nat → Bool}

theorem Ripples.nibble {carry : Nat → Bool} (chain : Ripples (4 * count) x y carry sum) {n : Nat}
    (inside : n < count) :
    Ripples 4 (fun i => x (4 * n + i)) (fun i => y (4 * n + i)) (fun i => carry (4 * n + i))
      (fun i => sum (4 * n + i)) where
  sums i small := chain.sums (4 * n + i) (by omega)
  carries i small := chain.carries (4 * n + i) (by omega)

/-- The carry into a place of a word, from the carries into the places of its nibbles: the carry
into a nibble other than the lowest is the one that leaves the nibble below. -/
def joinCarries (carry : Nat → Nat → Bool) (place : Nat) : Bool :=
  if place = 0 then carry 0 0 else carry ((place - 1) / 4) ((place - 1) % 4 + 1)

theorem joinCarries_succ (carry : Nat → Nat → Bool) {n i : Nat} (small : i < 4) :
    joinCarries carry (4 * n + i + 1) = carry n (i + 1) := by
  have nibble : (4 * n + i) / 4 = n := by omega
  have place : (4 * n + i) % 4 = i := by omega
  rw [joinCarries, if_neg (Nat.succ_ne_zero _), Nat.add_sub_cancel, nibble, place]

variable {carry : Nat → Nat → Bool} (linked : ∀ n, n + 1 < count → carry (n + 1) 0 = carry n 4)
include linked

theorem joinCarries_eq {n i : Nat} (inside : n < count) (small : i < 4) :
    joinCarries carry (4 * n + i) = carry n i := by
  cases i with
  | succ i => exact joinCarries_succ carry (by omega)
  | zero =>
      cases n with
      | zero => rfl
      | succ n =>
          rw [linked n inside]
          exact joinCarries_succ carry (by omega : 3 < 4)

theorem ripples_of_nibbles
    (each : ∀ n < count, Ripples 4 (fun i => x (4 * n + i)) (fun i => y (4 * n + i)) (carry n)
      (fun i => sum (4 * n + i))) :
    Ripples (4 * count) x y (joinCarries carry) sum := by
  -- a place is a place of one nibble, and its step there is the step of the word
  have split (place : Nat) (inside : place < 4 * count) :
      ∃ n i, n < count ∧ i < 4 ∧ place = 4 * n + i :=
    ⟨place / 4, place % 4, by omega, by omega, by omega⟩
  constructor
  · intro place inside
    obtain ⟨n, i, within, small, rfl⟩ := split place inside
    rw [joinCarries_eq linked within small]
    exact (each n within).sums i small
  · intro place inside
    obtain ⟨n, i, within, small, rfl⟩ := split place inside
    rw [joinCarries_eq linked within small, joinCarries_succ carry small]
    exact (each n within).carries i small

end Nibbles

end Zkvm.Formula
