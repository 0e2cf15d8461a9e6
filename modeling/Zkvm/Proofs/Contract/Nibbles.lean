import Zkvm.Contract.Instruction.Arithmetic
import Zkvm.Proofs.Formula.Numbering
import Zkvm.Proofs.Formula.Opening
import Zkvm.Proofs.Formula.Ripple

/-!
# Words in nibbles

The bits of a word are spread over nibbles, each with a name for its row, its nibble and its place
there.  The full adders of a nibble make a chain over its four places.
-/
set_option autoImplicit false

namespace Zkvm.Contract.Instruction

open Formula (IsName Wordy Ripples holds wordOf numberOf ofRows handedOn wireName opened HoldsOpened
  HoldsBeside Mentions Supplies)

/-! ## Names of bits -/

theorem isName_bitName {word : String} (named : IsName word) (n i : Nat) :
    IsName (bitName word n i) :=
  (named.append fun _ => Text.isDigit_of_mem_toString).append fun _ => Text.isDigit_of_mem_toString

theorem bracketed_bit {word : String} (named : IsName word) (n i : Nat) :
    (bit word n i).Bracketed :=
  .var (isName_bitName named n i)

theorem bitName_eq (word : String) (n i : Nat) :
    bitName word n i = word ++ (toString n ++ toString i) :=
  String.append_assoc ..

theorem isDigit_of_mem_digits {n i : Nat} {c : Char}
    (member : c ∈ (toString n ++ toString i).toList) :
    c.isDigit = true := by
  rw [String.toList_append, List.mem_append] at member
  exact member.elim Text.isDigit_of_mem_toString Text.isDigit_of_mem_toString

theorem ofDigitChars_digits (n : Nat) {i : Nat} (small : i < 10) :
    Nat.ofDigitChars 10 (toString n ++ toString i).toList 0 = 10 * n + i := by
  have one : ∀ i < 10, Nat.ofDigitChars 10 (toString i).toList n = 10 * n + i := by
    intro i small
    rw [Nat.toString_eq_repr, Nat.repr_eq_ofList_toDigits, String.toList_ofList,
      Nat.toDigits_of_lt_base small]
    interval_cases i <;> rfl
  rw [String.toList_append, Nat.ofDigitChars_append, Text.ofDigitChars_toString, one i small]

section Bits
variable {word : String} (wordy : Wordy word) (n i : Nat)
include wordy

theorem wordOf_bitName : wordOf (bitName word n i) = word := by
  rw [bitName_eq]
  exact Formula.wordOf_append wordy fun _ first => isDigit_of_mem_digits (List.mem_of_head? first)

theorem numberOf_bitName (small : i < 10) : numberOf (bitName word n i) = 10 * n + i := by
  rw [bitName_eq, Formula.numberOf_append wordy fun _ => isDigit_of_mem_digits,
    ofDigitChars_digits n small]

theorem ofRows_bitName (rows : String → Nat → Bool) (small : i < 10) :
    ofRows rows (bitName word n i) = rows word (10 * n + i) := by
  rw [ofRows, wordOf_bitName wordy, numberOf_bitName wordy n i small]

end Bits

/-- The bits of a row of an assignment by rows, where the row is given by nibbles and places
there. -/
theorem ofRows_bit {rows : String → Nat → Bool} {word : String} (wordy : Wordy word)
    (bits : Nat → Nat → Bool) (row : ∀ number, rows word number = bits (number / 10) (number % 10))
    (n : Nat) {i : Nat} (small : i < 4) :
    ofRows rows (bitName word n i) = bits n i := by
  have nibble : (10 * n + i) / 10 = n := by omega
  have place : (10 * n + i) % 10 = i := by omega
  rw [ofRows_bitName wordy n i rows (by omega), row, nibble, place]

/-! ## Rows -/

def joinNibbles (bits : Nat → Nat → Bool) (count : Nat) : BitVec (4 * count) :=
  BitVec.ofFnLE fun place => bits (place / 4) (place % 4)

theorem getLsbD_joinNibbles (bits : Nat → Nat → Bool) {count n i : Nat} (inside : n < count)
    (small : i < 4) :
    (joinNibbles bits count).getLsbD (4 * n + i) = bits n i := by
  have nibble : (4 * n + i) / 4 = n := by omega
  have place : (4 * n + i) % 4 = i := by omega
  rw [joinNibbles, BitVec.getLsbD_ofFnLE, dif_pos (by omega)]
  simp only [nibble, place]

theorem joinNibbles_eq_iff {bits : Nat → Nat → Bool} {count : Nat} {x : BitVec (4 * count)} :
    joinNibbles bits count = x ↔ ∀ n < count, ∀ i < 4, bits n i = x.getLsbD (4 * n + i) := by
  constructor
  · rintro rfl n inside i small
    exact (getLsbD_joinNibbles bits inside small).symm
  · intro same
    apply BitVec.eq_of_getLsbD_eq
    intro place inside
    have split : place = 4 * (place / 4) + place % 4 := by omega
    rw [split, getLsbD_joinNibbles bits (by omega) (by omega)]
    exact same _ (by omega) _ (by omega)

/-- The value of a row of nibbles under an assignment, the lowest nibble first. -/
def nibbleRow (value : Assignment) (word : String) (count : Nat) : BitVec (4 * count) :=
  BitVec.ofFnLE fun place => value (bitName word (place / 4 : Nat) (place % 4))

theorem nibbleRow_eq (value : Assignment) (word : String) (count : Nat) :
    nibbleRow value word count = joinNibbles (fun n i => value (bitName word n i)) count :=
  rfl

theorem getLsbD_nibbleRow (value : Assignment) (word : String) {count n i : Nat}
    (inside : n < count) (small : i < 4) :
    (nibbleRow value word count).getLsbD (4 * n + i) = value (bitName word n i) := by
  rw [nibbleRow_eq, getLsbD_joinNibbles _ inside small]

theorem nibbleRow_eq_iff {value : Assignment} {word : String} {count : Nat}
    {x : BitVec (4 * count)} :
    nibbleRow value word count = x ↔
      ∀ n < count, ∀ i < 4, value (bitName word n i) = x.getLsbD (4 * n + i) := by
  rw [nibbleRow_eq, joinNibbles_eq_iff]

def nibbleOf {width : Nat} (x : BitVec width) (n : Nat) : BitVec 4 :=
  x.extractLsb' (4 * n) 4

theorem getLsbD_nibbleOf {width : Nat} (x : BitVec width) (n : Nat) {i : Nat} (small : i < 4) :
    (nibbleOf x n).getLsbD i = x.getLsbD (4 * n + i) := by
  rw [nibbleOf, BitVec.getLsbD_extractLsb', decide_eq_true small, Bool.true_and]

theorem nibbleOf_eq_iff {width : Nat} {x y : BitVec width} {n : Nat} :
    nibbleOf x n = nibbleOf y n ↔ ∀ i < 4, x.getLsbD (4 * n + i) = y.getLsbD (4 * n + i) := by
  constructor
  · intro same i small
    rw [← getLsbD_nibbleOf x n small, same, getLsbD_nibbleOf y n small]
  · intro bits
    apply BitVec.eq_of_getLsbD_eq
    intro i small
    rw [getLsbD_nibbleOf x n small, bits i small, getLsbD_nibbleOf y n small]

/-- Words are equal if all their nibbles are. -/
theorem eq_iff_nibbles {count : Nat} {x y : BitVec (4 * count)} :
    x = y ↔ ∀ n < count, nibbleOf x n = nibbleOf y n := by
  constructor
  · rintro rfl n _
    rfl
  · intro nibbles
    apply BitVec.eq_of_getLsbD_eq
    intro place inside
    have split : place = 4 * (place / 4) + place % 4 := by omega
    rw [split]
    exact nibbleOf_eq_iff.mp (nibbles (place / 4) (by omega)) (place % 4) (by omega)

/-! ## Operands -/

theorem supplies_pairs {left right : Nat → String} (leftNamed : ∀ i, IsName (left i))
    (rightNamed : ∀ i, IsName (right i)) :
    Supplies ((List.range 4).flatMap fun i => [left i, right i])
      ((List.range 4).flatMap fun i => [.fix (left i) false, .fix (right i) false]) where
  named := List.forall_mem_flatMap.mpr fun i _ =>
    List.forall_mem_cons.mpr ⟨leftNamed i, List.forall_mem_singleton.mpr (rightNamed i)⟩
  assigns := by
    refine List.forall_mem_flatMap.mpr fun i inRange =>
      List.forall_mem_cons.mpr ⟨?_, List.forall_mem_singleton.mpr ?_⟩
    · exact ⟨_, List.mem_flatMap.mpr ⟨i, inRange, List.mem_cons_self⟩, false, rfl⟩
    · exact ⟨_, List.mem_flatMap.mpr ⟨i, inRange,
        List.mem_cons_of_mem _ (List.mem_singleton_self _)⟩, false, rfl⟩

def operandNames (n : Nat) : List String :=
  (List.range 4).flatMap fun i => [bitName "a" n i, bitName "b" n i]

theorem supplies_operandInputs (n : Nat) : Supplies (operandNames n) (operandInputs n) :=
  supplies_pairs (isName_bitName (by decide) n) (isName_bitName (by decide) n)

/-! ## Adders -/

/-- What is carried into the places of a nibble. -/
def carriesInto (value : Assignment) (carries : String) (n : Nat) (before : Bool) : Nat → Bool
  | 0 => before
  | i + 1 => value (bitName carries n i)

theorem holds_fullAdder (value : Assignment) (other result carries : String) (n i : Nat)
    (before : Term) :
    holds value (fullAdder other result carries n i before) = true ↔
      value (bitName result n i) =
          ((value (bitName "a" n i) ^^ value (bitName other n i)) ^^ before.eval value) ∧
        value (bitName carries n i) =
          handedOn (value (bitName "a" n i)) (value (bitName other n i)) (before.eval value) := by
  simp only [fullAdder, Formula.holds_pair, Clause.holds, beq_iff_eq, Formula.eval_sum,
    Formula.eval_carry]
  rfl

/-- The full adders of a nibble make a chain over its places. -/
theorem holds_adders (value : Assignment) (other result carries : String) (n : Nat)
    (before : Term) :
    holds value
        (fullAdder other result carries n 0 before ++ upperAdders other result carries n) = true ↔
      Ripples 4 (fun i => value (bitName "a" n i)) (fun i => value (bitName other n i))
        (carriesInto value carries n (before.eval value))
          (fun i => value (bitName result n i)) := by
  rw [Formula.holds_append, Bool.and_eq_true, holds_fullAdder, upperAdders, Formula.holds_flatMap]
  simp only [holds_fullAdder, List.mem_range]
  constructor
  · rintro ⟨lowest, upper⟩
    constructor
    · intro i small
      cases i with
      | zero => exact lowest.1
      | succ i => exact (upper i (by omega)).1
    · intro i small
      cases i with
      | zero => exact lowest.2
      | succ i => exact (upper i (by omega)).2
  · intro chain
    exact ⟨⟨chain.sums 0 (by omega), chain.carries 0 (by omega)⟩, fun i small =>
      ⟨chain.sums (i + 1) (by omega), chain.carries (i + 1) (by omega)⟩⟩

/-- Chains over all nibbles, each with the carry that leaves the one below, are a chain over the
words. -/
theorem ripples_nibbleRow {value : Assignment} {other result : String} {count : Nat}
    {carry : Nat → Nat → Bool} (linked : ∀ n, n + 1 < count → carry (n + 1) 0 = carry n 4)
    (each : ∀ n < count,
      Ripples 4 (fun i => value (bitName "a" n i)) (fun i => value (bitName other n i)) (carry n)
        (fun i => value (bitName result n i))) :
    Ripples (4 * count) (nibbleRow value "a" count).getLsbD (nibbleRow value other count).getLsbD
      (Formula.joinCarries carry) (nibbleRow value result count).getLsbD := by
  refine Formula.ripples_of_nibbles linked fun n inside =>
    (each n inside).congr ?_ ?_ (fun _ _ => rfl) ?_
  all_goals
    intro i small
    exact (getLsbD_nibbleRow value _ inside small).symm

theorem bracketed_fullAdder {other result carries : String} (second : IsName other)
    (third : IsName result) (fourth : IsName carries) (n i : Nat) {before : Term}
    (bracketed : before.Bracketed) :
    ∀ clause ∈ fullAdder other result carries n i before, clause.Bracketed := by
  have left := bracketed_bit (by decide : IsName "a") n i
  have right := bracketed_bit second n i
  exact Formula.forall_mem_pair ⟨isName_bitName third n i, .sum left right bracketed⟩
    ⟨isName_bitName fourth n i, .carry left right bracketed⟩

theorem bracketed_upperAdders {other result carries : String} (second : IsName other)
    (third : IsName result) (fourth : IsName carries) (n : Nat) :
    ∀ clause ∈ upperAdders other result carries n, clause.Bracketed :=
  List.forall_mem_flatMap.mpr fun i _ =>
    bracketed_fullAdder second third fourth n (i + 1) (bracketed_bit fourth n i)

def linkInputs (outgoing passed : String) (n : Nat) : List String :=
  [wireName outgoing n, bitName passed n (n + 1)]

def linkClauses (incoming outgoing passed : String) (n : Nat) : List Clause :=
  [.fixWire outgoing n true, handOver incoming outgoing n (n + 1 : Nat),
    .fix (bitName passed n (n + 1)) true]

section Links
variable {title incoming outgoing passed : String} (first : IsName incoming)
  (second : IsName outgoing) (third : IsName passed) (n : Nat) (operation : String)
include first second third

theorem bracketed_linkClauses :
    ∀ clause ∈ linkClauses incoming outgoing passed n, clause.Bracketed :=
  List.forall_mem_cons.mpr ⟨⟨second.wire n, .bit true⟩, Formula.forall_mem_pair
    (Clause.bracketed_wire first (n + 1) (Term.bracketed_wire second n))
    ⟨isName_bitName third n (n + 1), .bit true⟩⟩

omit first in
theorem isName_linkInputs : ∀ name ∈ linkInputs outgoing passed n, IsName name :=
  List.forall_mem_cons.mpr ⟨second.wire n,
    List.forall_mem_singleton.mpr (isName_bitName third n (n + 1))⟩

theorem holds_link (value : Assignment) :
    HoldsOpened (linkInputs outgoing passed n) value
        (link title incoming outgoing passed n (n + 1 : Nat) operation).contract.constraints ↔
      value (wireName incoming (n + 1 : Nat)) = value (wireName outgoing n) := by
  refine (Formula.holdsOpened_iff (bracketed_linkClauses first second third n)
    (isName_linkInputs second third n) value).trans ?_
  have leaves : HoldsBeside (linkInputs outgoing passed n) value [.fixWire outgoing n true] :=
    (Formula.supplies_fix (second.wire n) true).holdsBeside
      (List.cons_subset_cons _ (List.nil_subset _))
  have passes :
      HoldsBeside (linkInputs outgoing passed n) value [.fix (bitName passed n (n + 1)) true] :=
    (Formula.supplies_fix (isName_bitName third n (n + 1)) true).holdsBeside
      (List.subset_cons_self _ _)
  have hands :
      HoldsBeside (linkInputs outgoing passed n) value
        [handOver incoming outgoing n (n + 1 : Nat)] ↔
      value (wireName incoming (n + 1 : Nat)) = value (wireName outgoing n) := by
    rw [Formula.holdsBeside_iff_holds rfl, Formula.holds_singleton, handOver, Formula.holds_wire]
    rfl
  have parts : linkClauses incoming outgoing passed n = [.fixWire outgoing n true] ++
      [handOver incoming outgoing n (n + 1 : Nat)] ++ [.fix (bitName passed n (n + 1)) true] := rfl
  rw [parts, Formula.holdsBeside_append, Formula.holdsBeside_append, hands]
  exact ⟨fun all => all.1.2, fun handed => ⟨⟨leaves, handed⟩, passes⟩⟩

end Links

end Zkvm.Contract.Instruction
