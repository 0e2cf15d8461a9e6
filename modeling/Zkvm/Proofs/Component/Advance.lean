import Zkvm.Component.Control
import Zkvm.Proofs.Formula.Numbering
import Zkvm.Proofs.Formula.Opening
import Zkvm.Proofs.Formula.Ripple

/-!
# The counter plus four

Eight nibbles of control flow, each with a carry of its own that comes in, add four to the counter
when the carries are linked: four is added at its place in the lowest nibble, and the others hand
the carry on.
-/
set_option autoImplicit false

namespace Zkvm.Component

open Formula (IsName Wordy Ripples holds ofRows wireName row HoldsOpened HoldsBeside handedOn
  Supplies)

/-! ## Numbered places -/

theorem isName_wireName {word : String} (named : IsName word) {index : Int} (natural : 0 ≤ index) :
    IsName (wireName word index) := by
  lift index to Nat using natural
  exact named.wire index

theorem bracketed_wire {word : String} (named : IsName word) {index : Int} (natural : 0 ≤ index) :
    (Term.wire word index).Bracketed :=
  .var (isName_wireName named natural)

theorem place_eq (n i : Nat) : (n : Int) * 4 + i = (4 * n + i : Nat) := by
  omega

theorem eq_of_nibbles {x y : BitVec 32}
    (same : ∀ n < 8, ∀ i < 4, x.getLsbD (4 * n + i) = y.getLsbD (4 * n + i)) : x = y := by
  apply BitVec.eq_of_getLsbD_eq
  intro i inside
  have place : 4 * (i / 4) + i % 4 = i := by omega
  rw [← place]
  exact same (i / 4) (by omega) (i % 4) (by omega)

section Own
variable (value : Assignment) (own : Bool)

theorem own_carry : Function.update value "cin" own "cin" = own :=
  Function.update_self ..

theorem own_wire {word : String} (wordy : Wordy word) (other : word ≠ "cin") (i : Nat) :
    Function.update value "cin" own (wireName word i) = value (wireName word i) :=
  Formula.update_of_word (by rwa [Formula.wordOf_wireName wordy]) own

end Own

/-! ## Samples and links -/

theorem places_eq (n : Nat) :
    places n = (List.range 4).map fun i : Nat => ((4 * n + i : Nat) : Int) := by
  have offset : (n : Int) * 4 = (4 * n : Nat) := by omega
  rw [places, offset]
  rfl

theorem names_eq (word : String) (n : Nat) :
    names word n = (List.range 4).map fun i => wireName word (4 * n + i : Nat) := by
  rw [names, places_eq, List.map_map]
  rfl

theorem mem_names {word : String} (n : Nat) {i : Nat} (small : i < 4) :
    wireName word ((n : Int) * 4 + i) ∈ names word n := by
  rw [names_eq, place_eq]
  exact List.mem_map.mpr ⟨i, List.mem_range.mpr small, rfl⟩

theorem wordOf_names {word name : String} (wordy : Wordy word) {n : Nat}
    (member : name ∈ names word n) :
    Formula.wordOf name = word := by
  rw [names_eq] at member
  obtain ⟨i, _, rfl⟩ := List.mem_map.mp member
  exact Formula.wordOf_wireName wordy _

theorem supplies_samples {word : String} (named : IsName word) (n : Nat) (start : Int) :
    Supplies (names word n) (samples word n start) where
  named := by
    rw [names_eq]
    exact List.forall_mem_map.mpr fun i _ => named.wire _
  assigns :=
    List.forall_mem_map.mpr fun _ member => ⟨_, mem_names n (List.mem_range.mp member), _, rfl⟩

theorem supplies_controlCarryIn (n : Nat) : Supplies ["cin"] (controlCarryIn n) := by
  rw [controlCarryIn]
  split
  · exact Formula.supplies_nil (by decide)
  · exact Formula.supplies_fix (by decide) false

theorem holds_link {names : List String} {title target source : String}
    (named : ∀ name ∈ names, IsName name) (incoming : IsName target) (given : source ∈ names)
    (value : Assignment) :
    HoldsOpened names value (link title target source).constraints ↔
      value target = value source := by
  have supplied : Supplies names [.fix source false] :=
    ⟨named, List.forall_mem_singleton.mpr ⟨source, given, false, rfl⟩⟩
  have hands : ∀ clause ∈ [Clause.define target (.var source)], clause.Bracketed :=
    List.forall_mem_singleton.mpr ⟨incoming, .var (named source given)⟩
  have handed : HoldsBeside names value [Clause.define target (.var source)] ↔
      value target = value source := by
    rw [Formula.holdsBeside_iff_holds rfl, Formula.holds_singleton, Formula.holds_define, Term.eval]
  exact (supplied.holdsOpened_append hands).trans handed

theorem holds_counterLink (value : Assignment) (own : Bool) (n : Nat) :
    HoldsOpened [wireName "cout" n] (Function.update value "cin" own)
      (counterLink n (n + 1 : Nat)).constraints ↔
      own = value (wireName "cout" n) := by
  have out : IsName (wireName "cout" n) := (by decide : IsName "cout").wire n
  refine (holds_link (List.forall_mem_singleton.mpr out) (by decide) (List.mem_singleton_self _)
    _).trans ?_
  rw [own_carry, own_wire value own (by decide) (by decide)]

/-! ## One nibble -/

theorem bracketed_plusFour {result : String} (named : IsName result) :
    ∀ clause ∈ plusFour result, clause.Bracketed := by
  have bit (i : Nat) {name : String} (counter : IsName name) (b : Bool) :
      (Clause.wire result i (.group (.var name ^^^ .bit b))).Bracketed :=
    Clause.bracketed_wire named i (.pair rfl (.var counter) (.bit b))
  have carries : ∀ clause ∈ [Clause.define "c2" (.var "pc2"),
      .wire result 3 (.group (.var "pc3" ^^^ .var "c2")),
      .define "cout0" (.group (.var "pc3" &&& .var "c2"))], clause.Bracketed := by
    refine List.forall_mem_cons.mpr ⟨⟨by decide, .var (by decide)⟩, Formula.forall_mem_pair ?_ ?_⟩
    · exact Clause.bracketed_wire named 3 (.pair rfl (.var (by decide)) (.var (by decide)))
    · exact ⟨by decide, .pair rfl (.var (by decide)) (.var (by decide))⟩
  exact List.forall_mem_cons.mpr ⟨bit 0 (by decide) false,
    List.forall_mem_cons.mpr ⟨bit 1 (by decide) false,
      List.forall_mem_cons.mpr ⟨bit 2 (by decide) true, carries⟩⟩⟩

def halfAdder (result : String) (place : Int) (before : Term) : List Clause :=
  [.wire result place (.group (.wire "pc" place ^^^ before)),
    .wire "c" place (.group (.wire "pc" place &&& before))]

theorem plusCarry_eq (result : String) (n : Nat) :
    plusCarry result n = halfAdder result (4 * n : Nat) (.var "cin") ++
      (List.range 3).flatMap
        (fun i => halfAdder result (4 * n + (i + 1) : Nat) (.wire "c" (4 * n + i : Nat))) ++
      if n < 7 then [.wire "cout" n (.wire "c" (4 * n + 3 : Nat))] else [] := by
  have offset : (n : Int) * 4 = (4 * n : Nat) := by omega
  have here (i : Nat) : ((4 * n : Nat) : Int) + (i + 1) = (4 * n + (i + 1) : Nat) := by omega
  have below (i : Nat) : ((4 * n + (i + 1) : Nat) : Int) - 1 = (4 * n + i : Nat) := by omega
  have last : ((4 * n : Nat) : Int) + 3 = (4 * n + 3 : Nat) := by omega
  have bound : ((n : Int) < 7) = (n < 7) := propext (by omega)
  have three : ([1, 2, 3] : List Int) = (List.range 3).map fun i : Nat => (i + 1 : Int) := rfl
  change halfAdder result (n * 4) (.var "cin") ++
    [1, 2, 3].flatMap (fun i : Int => halfAdder result (n * 4 + i) (.wire "c" (n * 4 + i - 1))) ++
    (if (n : Int) < 7 then [.wire "cout" n (.wire "c" (n * 4 + 3))] else []) = _
  rw [three, List.flatMap_map, offset, last]
  simp only [here, below, bound]

theorem bracketed_halfAdder {result : String} (named : IsName result) (place : Nat) {before : Term}
    (bracketed : before.Bracketed) :
    ∀ clause ∈ halfAdder result place before, clause.Bracketed := by
  have counter := Term.bracketed_wire (by decide : IsName "pc") place
  exact Formula.forall_mem_pair (Clause.bracketed_wire named place (.pair rfl counter bracketed))
    (Clause.bracketed_wire (by decide) place (.pair rfl counter bracketed))

theorem bracketed_advance {result : String} (named : IsName result) (n : Nat) :
    ∀ clause ∈ advance result n, clause.Bracketed := by
  rw [advance]
  split
  · exact bracketed_plusFour named
  · rw [plusCarry_eq]
    refine List.forall_mem_append.mpr
      ⟨List.forall_mem_append.mpr ⟨?_, List.forall_mem_flatMap.mpr ?_⟩, ?_⟩
    · exact bracketed_halfAdder named _ (.var (by decide))
    · exact fun i _ => bracketed_halfAdder named _ (Term.bracketed_wire (by decide) _)
    · split
      · exact List.forall_mem_singleton.mpr
          (Clause.bracketed_wire (by decide) n (Term.bracketed_wire (by decide) _))
      · exact List.forall_mem_nil _

theorem isConstant_advance (result : String) (n : Nat) :
    (advance result n).any Clause.isConstant = false := by
  rw [advance]
  split
  · rfl
  · rw [plusCarry]
    split <;> rfl

/-- What is carried into the places of the lowest nibble: nothing up to the place of four. -/
def lowestCarries (value : Assignment) (i : Nat) : Bool :=
  if i = 3 then value (wireName "c" 2) else if i = 4 then value (wireName "cout" 0) else false

/-- What is carried into the places of a higher nibble. -/
def higherCarries (value : Assignment) (n : Nat) (own : Bool) : Nat → Bool
  | 0 => own
  | i + 1 => value (wireName "c" (4 * n + i : Nat))

theorem holds_plusFour (value : Assignment) (result : String) :
    holds value (plusFour result) = true ↔
      Ripples 4 (fun i => value (wireName "pc" i)) (fun i => decide (i = 2)) (lowestCarries value)
        (fun i => value (wireName result i)) := by
  have clauses : holds value (plusFour result) = true ↔
      value (wireName result 0) = value (wireName "pc" 0) ∧
        value (wireName result 1) = value (wireName "pc" 1) ∧
      value (wireName result 2) = !value (wireName "pc" 2) ∧
        value (wireName "c" 2) = value (wireName "pc" 2) ∧
      value (wireName result 3) = (value (wireName "pc" 3) ^^ value (wireName "c" 2)) ∧
      value (wireName "cout" 0) = (value (wireName "pc" 3) && value (wireName "c" 2)) := by
    have names : wireName "pc" 0 = "pc0" ∧ wireName "pc" 1 = "pc1" ∧ wireName "pc" 2 = "pc2" ∧
        wireName "pc" 3 = "pc3" ∧ wireName "c" 2 = "c2" ∧ wireName "cout" 0 = "cout0" := by decide
    obtain ⟨pc0, pc1, pc2, pc3, c2, cout0⟩ := names
    simp only [plusFour, Formula.holds_cons, Formula.holds_nil, and_true, Formula.holds_wire,
      Formula.holds_define, Term.eval, Term.eval_xor, Term.eval_and, Bool.xor_false, Bool.xor_true,
      pc0, pc1, pc2, pc3, c2, cout0]
  rw [clauses]
  constructor
  · rintro ⟨zero, one, two, carry, three, out⟩
    constructor
    · intro i small
      interval_cases i <;> simp [lowestCarries, zero, one, two, three]
    · intro i small
      interval_cases i <;> simp [lowestCarries, handedOn, carry, out]
  · intro chain
    have zero := chain.sums 0 (by decide)
    have one := chain.sums 1 (by decide)
    have two := chain.sums 2 (by decide)
    have three := chain.sums 3 (by decide)
    have carry := chain.carries 2 (by decide)
    have out := chain.carries 3 (by decide)
    simp [lowestCarries, handedOn] at zero one two three carry out
    exact ⟨zero, one, two, carry, three, out⟩

theorem holds_halfAdder (value : Assignment) (result : String) (place : Nat) (before : Term) :
    holds value (halfAdder result place before) = true ↔
      value (wireName result place) = (value (wireName "pc" place) ^^ before.eval value) ∧
      value (wireName "c" place) = (value (wireName "pc" place) && before.eval value) := by
  rw [halfAdder, Formula.holds_pair, Formula.holds_wire, Formula.holds_wire]
  rfl

/-- The half adders of a higher nibble make a chain that adds nothing but the carry that comes
in. -/
theorem holds_plusCarry (value : Assignment) (result : String) (n : Nat) :
    holds value (plusCarry result n) = true ↔
      Ripples 4 (fun i => value (wireName "pc" (4 * n + i : Nat))) (fun _ => false)
        (higherCarries value n (value "cin")) (fun i => value (wireName result (4 * n + i : Nat))) ∧
      (n < 7 → value (wireName "cout" n) = value (wireName "c" (4 * n + 3 : Nat))) := by
  have out :
      holds value (if n < 7 then [.wire "cout" n (.wire "c" (4 * n + 3 : Nat))] else []) = true ↔
        (n < 7 → value (wireName "cout" n) = value (wireName "c" (4 * n + 3 : Nat))) := by
    split
    · next bound =>
        rw [Formula.holds_singleton, Formula.holds_wire]
        exact ⟨fun handed _ => handed, fun handed => handed bound⟩
    · next bound => exact ⟨fun _ inside => absurd inside bound, fun _ => Formula.holds_nil value⟩
  rw [plusCarry_eq, Formula.holds_append, Bool.and_eq_true, Formula.holds_append, Bool.and_eq_true,
    Formula.holds_flatMap, holds_halfAdder, out]
  simp only [holds_halfAdder, List.mem_range]
  refine and_congr ⟨?_, ?_⟩ Iff.rfl
  · rintro ⟨lowest, upper⟩
    constructor
    · intro i small
      rw [Bool.xor_false]
      cases i with
      | zero => exact lowest.1
      | succ i => exact (upper i (by omega)).1
    · intro i small
      rw [handedOn, Bool.and_false, Bool.false_or, Bool.xor_false]
      cases i with
      | zero => exact lowest.2
      | succ i => exact (upper i (by omega)).2
  · intro chain
    have sums : ∀ i < 4, _ := chain.sums
    have carries : ∀ i < 4, _ := chain.carries
    simp only [handedOn, Bool.and_false, Bool.false_or, Bool.xor_false] at sums carries
    exact ⟨⟨sums 0 (by decide), carries 0 (by decide)⟩, fun i small =>
      ⟨sums (i + 1) (by omega), carries (i + 1) (by omega)⟩⟩

/-- What is carried into the places of the nibbles, each with its own carry that comes in. -/
def advanceCarries (value : Assignment) (own : Nat → Bool) : Nat → Nat → Bool
  | 0 => lowestCarries value
  | n + 1 => higherCarries value (n + 1) (own (n + 1))

theorem getLsbD_four (i : Nat) : (4 : BitVec 32).getLsbD i = decide (i = 2) := by
  have power : (4 : BitVec 32) = BitVec.twoPow 32 2 := rfl
  rw [power, BitVec.getLsbD_twoPow]
  simp [eq_comm]

/-- One nibble of the counter plus four is a chain over its places. -/
theorem holds_advance {result : String} (wordy : Wordy result) (other : result ≠ "cin")
    (value : Assignment) (own : Nat → Bool) (n : Nat) :
    holds (Function.update value "cin" (own n)) (advance result n) = true ↔
      Ripples 4 (fun i => value (wireName "pc" (4 * n + i : Nat)))
        (fun i => (4 : BitVec 32).getLsbD (4 * n + i))
        (advanceCarries value own n) (fun i => value (wireName result (4 * n + i : Nat))) ∧
      (0 < n → n < 7 → value (wireName "cout" n) = value (wireName "c" (4 * n + 3 : Nat))) := by
  have counter (i : Nat) := own_wire value (own n) (by decide : Wordy "pc") (by decide) i
  have carry (i : Nat) := own_wire value (own n) (by decide : Wordy "c") (by decide) i
  have out (i : Nat) := own_wire value (own n) (by decide : Wordy "cout") (by decide) i
  have results (i : Nat) := own_wire value (own n) wordy other i
  cases n with
  | zero =>
      have carries : lowestCarries (Function.update value "cin" (own 0)) = lowestCarries value := by
        funext i
        rw [lowestCarries, lowestCarries]
        exact congrArg₂ (fun two zero => if i = 3 then two else if i = 4 then zero
          else false) (carry 2) (out 0)
      have shape : advance result (0 : Nat) = plusFour result := rfl
      rw [shape, holds_plusFour, carries]
      simp only [counter, results, Nat.mul_zero, Nat.zero_add, getLsbD_four]
      exact ⟨fun chain => ⟨chain, fun positive => absurd positive (by decide)⟩, fun both => both.1⟩
  | succ n =>
      have high : ¬ ((n + 1 : Nat) : Int) = 0 := by omega
      have carries :
          higherCarries (Function.update value "cin" (own (n + 1))) (n + 1) (own (n + 1)) =
            higherCarries value (n + 1) (own (n + 1)) := by
        funext i
        cases i with
        | zero => rfl
        | succ i => exact carry _
      have nothing (i : Nat) : (4 : BitVec 32).getLsbD (4 * (n + 1) + i) = false := by
        rw [getLsbD_four]
        exact decide_eq_false (by omega)
      rw [advance, if_neg high, holds_plusCarry, own_carry, carries]
      simp only [counter, results, out, carry, nothing]
      refine and_congr Iff.rfl ⟨fun handed _ => handed, fun handed => handed (by omega)⟩

/-! ## All nibbles -/

/-- The nibbles of the counter plus four hold and their carries are linked. -/
structure Advances (result : String) (value : Assignment) (own : Nat → Bool) : Prop where
  nibbles : ∀ n < 8, holds (Function.update value "cin" (own n)) (advance result n) = true
  links : ∀ n < 7, own (n + 1) = value (wireName "cout" n)

theorem Advances.row_eq {result : String} {value : Assignment} {own : Nat → Bool}
    (wordy : Wordy result) (other : result ≠ "cin") (advances : Advances result value own) :
    row value result 32 = row value "pc" 32 + 4 := by
  have chains (n : Nat) (inside : n < 8) :=
    (holds_advance wordy other value own n).mp (advances.nibbles n inside)
  have linked :
      ∀ n, n + 1 < 8 → advanceCarries value own (n + 1) 0 = advanceCarries value own n 4 := by
    intro n inside
    have handed : advanceCarries value own (n + 1) 0 = value (wireName "cout" n) :=
      advances.links n (by omega)
    rw [handed]
    cases n with
    | zero => rfl
    -- a higher nibble hands on the carry of its last place, which it names once more
    | succ n => exact (chains (n + 1) (by omega)).2 (by omega) (by omega)
  have chain : Ripples (4 * 8) (row value "pc" 32).getLsbD (4 : BitVec 32).getLsbD
      (Formula.joinCarries (advanceCarries value own)) (row value result 32).getLsbD := by
    refine Formula.ripples_of_nibbles linked fun n inside =>
      (chains n inside).1.congr ?_ (fun _ _ => rfl)
      (fun _ _ => rfl) ?_
    · exact fun i small => (Formula.getLsbD_row value "pc" (by omega)).symm
    · exact fun i small => (Formula.getLsbD_row value result (by omega)).symm
  apply BitVec.eq_of_getLsbD_eq
  intro i inside
  rw [chain.sum_eq inside]
  exact congrArg (fun word => word.getLsbD i) (Formula.addWithCarry_false (row value "pc" 32) 4)

/-! ## The assignment of the counter plus four -/

theorem row_ofRows {rows : String → Nat → Bool} {word : String} {x : BitVec 32}
    (bits : ∀ i : Nat, ofRows rows (wireName word i) = x.getLsbD i) :
    row (ofRows rows) word 32 = x := by
  apply BitVec.eq_of_getLsbD_eq
  intro i inside
  rw [Formula.getLsbD_row _ word inside, bits]

/-- Nothing is carried up to the place of four. -/
theorem carry_four_low (pc : BitVec 32) {i : Nat} (low : i ≤ 2) :
    BitVec.carry i pc 4 false = false := by
  induction i with
  | zero => exact BitVec.carry_zero
  | succ i ih =>
      have zero : (4 : BitVec 32).getLsbD i = false := by
        rw [getLsbD_four]
        exact decide_eq_false (by omega)
      rw [Formula.carry_succ_eq, ih (by omega), zero, handedOn, Bool.and_false, Bool.and_false,
        Bool.or_false]

def advanceRows (pc : BitVec 32) (word : String) (number : Nat) : Bool :=
  if word = "pc" then pc.getLsbD number
  else if word = "c" then BitVec.carry (number + 1) pc 4 false
  else BitVec.carry (4 * number + 4) pc 4 false

def advanceOwn (pc : BitVec 32) (n : Nat) : Bool :=
  BitVec.carry (4 * n) pc 4 false

section Rows
variable {rows : String → Nat → Bool} {pc : BitVec 32}
  (counts : ∀ word ∈ ["pc", "c", "cout"], rows word = advanceRows pc word)
include counts

theorem ofRows_counter (i : Nat) : ofRows rows (wireName "pc" i) = pc.getLsbD i := by
  rw [Formula.ofRows_wireName (by decide), counts "pc" (by decide)]
  rfl

theorem ofRows_carry (i : Nat) :
    ofRows rows (wireName "c" i) = BitVec.carry (i + 1) pc 4 false := by
  rw [Formula.ofRows_wireName (by decide), counts "c" (by decide)]
  rfl

theorem ofRows_out (n : Nat) :
    ofRows rows (wireName "cout" n) = BitVec.carry (4 * n + 4) pc 4 false := by
  rw [Formula.ofRows_wireName (by decide), counts "cout" (by decide)]
  rfl

theorem advanceCarries_ofRows (n : Nat) {i : Nat} (small : i ≤ 4) :
    advanceCarries (ofRows rows) (advanceOwn pc) n i = BitVec.carry (4 * n + i) pc 4 false := by
  cases n with
  | zero =>
      rw [advanceCarries, lowestCarries, Nat.mul_zero, Nat.zero_add]
      split
      · next three =>
          subst three
          exact ofRows_carry counts 2
      · split
        · next four =>
            subst four
            exact ofRows_out counts 0
        · exact (carry_four_low pc (by omega)).symm
  | succ n =>
      cases i with
      | zero => rfl
      | succ i => exact ofRows_carry counts _

theorem advances_ofRows {result : String} (wordy : Wordy result) (other : result ≠ "cin")
    (sums : ∀ i, rows result i = (pc + 4).getLsbD i) :
    Advances result (ofRows rows) (advanceOwn pc) := by
  have results (i : Nat) : ofRows rows (wireName result i) = (pc + 4).getLsbD i := by
    rw [Formula.ofRows_wireName wordy, sums]
  have word :
      Ripples (4 * 8) pc.getLsbD (4 : BitVec 32).getLsbD (fun i => BitVec.carry i pc 4 false)
        (pc + 4).getLsbD := by
    have chain := Formula.ripples_word pc 4 false
    rwa [Formula.addWithCarry_false] at chain
  refine ⟨fun n inside => (holds_advance wordy other _ (advanceOwn pc) n).mpr ⟨?_, ?_⟩, ?_⟩
  · refine (word.nibble inside).congr ?_ (fun _ _ => rfl) ?_ ?_
    · exact fun i _ => (ofRows_counter counts _).symm
    · exact fun i small => (advanceCarries_ofRows counts n small).symm
    · exact fun i _ => (results _).symm
  · intro _ _
    rw [ofRows_out counts, ofRows_carry counts]
  · intro n _
    exact (ofRows_out counts n).symm

end Rows

end Zkvm.Component
