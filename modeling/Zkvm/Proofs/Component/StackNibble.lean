import Zkvm.Component.Stack
import Zkvm.Proofs.Component.WordStep

/-!
# Nibbles of the stack pointer

A nibble of a push or of a pop changes its bits of the pointer where a carry or a borrow comes into
their places. The lowest nibble is written apart from the others: it is stepped in any case, and it
alone says what leaves it.
-/
set_option autoImplicit false

namespace Zkvm.Component

open Formula (IsName Wordy holds wireName HoldsOpened HoldsBeside Supplies)

namespace StackMove

def instruction : StackMove → String
  | .push => "PUSH"
  | .pop => "POP"

def nibble : StackMove → Int → Component
  | .push => pushNibble
  | .pop => popNibble

def link : StackMove → Nat → Component
  | .push, n => pushLink n (n + 1 : Nat)
  | .pop, n => popLink n (n + 1 : Nat)

def result : StackMove → String
  | .push => "sp_inc"
  | .pop => "sp_dec"

def incoming : StackMove → String
  | .push => "carry_in"
  | .pop => "borrow_in"

def outgoing : StackMove → String
  | .push => "carry_out"
  | .pop => "borrow_out"

def locals : StackMove → List String
  | .push => ["carry_in"]
  | .pop => ["borrow_in", "borrow0", "borrow1", "borrow2", "borrow3"]

def inputs : StackMove → Nat → List String
  | .push, n => names "sp" n ++ names "push_data" n ++ ["carry_in"]
  | .pop, n => names "sp" n ++ ["borrow_in"]

end StackMove

/-! ## Bits of a nibble -/

/-- What comes into a nibble; the lowest one is always stepped. -/
def firstIn (move : StackMove) (value : Assignment) (n : Nat) : Bool :=
  if n = 0 then true else value move.incoming

def pointerBits (value : Assignment) (n i : Nat) : Bool :=
  value (wireName "sp" (4 * n + i : Nat))

/-- What a nibble says besides its inputs, the flag of the stack and the data. -/
def stepLogic : StackMove → Nat → List Clause
  | .push, n => if n = 0 then pushLowest n else pushHigher n
  | .pop, n => if n = 0 then popLowest n else popHigher n

theorem forall_lt_four {property : Nat → Prop} :
    (∀ i < 4, property i) ↔ property 0 ∧ property 1 ∧ property 2 ∧ property 3 := by
  constructor
  · intro all
    exact ⟨all 0 (by decide), all 1 (by decide), all 2 (by decide), all 3 (by decide)⟩
  · rintro ⟨zero, one, two, three⟩ i small
    interval_cases i <;> assumption

theorem eval_pointerAll (value : Assignment) (n count : Nat) :
    (pointerAll (4 * n : Nat) count).eval value =
      passed false (pointerBits value n) true count := by
  rw [pointerAll, Term.eval_joined_all fun _ _ => rfl, List.all_map, passed, Bool.true_and]
  simp only [Bool.xor_false]
  rfl

theorem holds_pushLowest (value : Assignment) :
    holds value (pushLowest 0) = true ↔
      (∀ i < (4 : Nat), value (wireName "sp_inc" i) =
        (pointerBits value 0 i ^^ passed false (pointerBits value 0) true i)) ∧
      value (wireName "carry_out" 0) = passed false (pointerBits value 0) true 4 := by
  have lowest (count : Nat) :
      (pointerAll 0 count).eval value = passed false (pointerBits value 0) true count :=
    eval_pointerAll value 0 count
  have inputs : value "sp0" = pointerBits value 0 0 ∧ value "sp1" = pointerBits value 0 1 ∧
      value "sp2" = pointerBits value 0 2 ∧ value "sp3" = pointerBits value 0 3 :=
    ⟨congrArg value (by decide), congrArg value (by decide), congrArg value (by decide),
      congrArg value (by decide)⟩
  have results : "sp_inc0" = wireName "sp_inc" (0 : Nat) ∧ "sp_inc1" = wireName "sp_inc" (1 : Nat) ∧
      "sp_inc2" = wireName "sp_inc" (2 : Nat) ∧ "sp_inc3" = wireName "sp_inc" (3 : Nat) := by decide
  obtain ⟨zero, one, two, three⟩ := inputs
  obtain ⟨first, second, third, fourth⟩ := results
  rw [forall_lt_four, pushLowest, first, second, third, fourth]
  simp only [Formula.holds_cons, Formula.holds_nil, and_true, Formula.holds_define,
    Formula.holds_wire, Term.eval, Term.eval_xor, Term.eval_and, lowest, zero, one, two, three,
    passed_succ, passed_zero, Bool.xor_false, Bool.true_and, Bool.and_true, and_assoc]

theorem holds_pushHigher (value : Assignment) (n : Nat) :
    holds value (pushHigher n) = true ↔
      ∀ i < (4 : Nat), value (wireName "sp_inc" (4 * n + i : Nat)) =
        (pointerBits value n i ^^ passed false (pointerBits value n) (value "carry_in") i) := by
  have offset : (n : Int) * 4 = (4 * n : Nat) := by omega
  have place (i : Nat) : ((4 * n : Nat) : Int) + i + 1 = (4 * n + (i + 1) : Nat) := by omega
  have first (i : Nat) : passed false (pointerBits value n) (value "carry_in") i =
      (passed false (pointerBits value n) true i && value "carry_in") := by
    rw [passed, passed, Bool.true_and, Bool.and_comm]
  rw [pushHigher, Formula.holds_cons, Formula.holds_map, offset]
  simp only [List.mem_range, Formula.holds_wire, Term.eval, Term.eval_xor, Term.eval_and, place,
    eval_pointerAll, first]
  constructor
  · rintro ⟨lowest, upper⟩ i small
    cases i with
    | zero => exact lowest
    | succ i => exact upper i (by omega)
  · intro all
    exact ⟨all 0 (by decide), fun i small => all (i + 1) (by omega)⟩

/-- The borrows into the places of a nibble and the one that leaves it, which has a name of its
own. -/
def borrowsInto (value : Assignment) (first : Bool) (last : String) (i : Nat) : Bool :=
  if i = 0 then first else if i = 4 then value last else value (wireName "borrow" (i - 1 : Nat))

/-- A nibble whose borrows go on from place to place. -/
structure Borrows (value : Assignment) (n : Nat) (first : Bool) (last : String) : Prop where
  results : ∀ i < (4 : Nat), value (wireName "sp_dec" (4 * n + i : Nat)) =
    (pointerBits value n i ^^ passed true (pointerBits value n) first i)
  inner : ∀ i < (3 : Nat), value (wireName "borrow" i) =
    passed true (pointerBits value n) first (i + 1)
  leaves : value last = passed true (pointerBits value n) first 4

theorem borrows_iff {value : Assignment} {n : Nat} {first : Bool} {last : String} :
    Borrows value n first last ↔
      ∀ i < (4 : Nat), value (wireName "sp_dec" (4 * n + i : Nat)) =
          (pointerBits value n i ^^ borrowsInto value first last i) ∧
        borrowsInto value first last (i + 1) =
          (borrowsInto value first last i && !pointerBits value n i) := by
  constructor
  · intro nibble
    have into : ∀ i ≤ (4 : Nat), borrowsInto value first last i =
        passed true (pointerBits value n) first i := by
      intro i inside
      rw [borrowsInto]
      split
      · next zero => rw [zero, passed_zero]
      · split
        · next four => rw [four, nibble.leaves]
        · have before : i - 1 + 1 = i := by omega
          rw [nibble.inner (i - 1) (by omega), before]
    intro i small
    rw [nibble.results i small, into i (by omega), into (i + 1) (by omega), passed_succ,
      Bool.xor_true]
    exact ⟨rfl, rfl⟩
  · intro chain
    have into : ∀ i ≤ (4 : Nat), borrowsInto value first last i =
        passed true (pointerBits value n) first i := by
      intro i
      induction i with
      | zero => exact fun _ => (passed_zero true (pointerBits value n) first).symm
      | succ i ih =>
          intro inside
          rw [(chain i (by omega)).2, ih (by omega), passed_succ, Bool.xor_true]
    refine ⟨fun i small => ?_, fun i small => ?_, into 4 (by decide)⟩
    · rw [(chain i small).1, into i (by omega)]
    · rw [← into (i + 1) (by omega), borrowsInto, if_neg (by omega), if_neg (by omega)]
      rfl

theorem holds_popLowest (value : Assignment) :
    holds value (popLowest 0) = true ↔ Borrows value 0 true (wireName "borrow_out" 0) := by
  have first : borrowsInto value true (wireName "borrow_out" 0) 0 = true := rfl
  rw [borrows_iff, forall_lt_four, popLowest, first, Bool.xor_true, Bool.true_and]
  simp only [Formula.holds_cons, Formula.holds_nil, and_true, Formula.holds_wire, borrowOn,
    Term.eval, Term.eval_xor, Term.eval_and, Term.eval_flipped, Term.wire, and_assoc]
  -- what is left differs only in how the places are written
  exact Iff.rfl

theorem holds_popHigher (value : Assignment) (n : Nat) :
    holds value (popHigher n) = true ↔
      Borrows value n (value "borrow_in") (wireName "borrow" (3 : Nat)) := by
  have offset : (n : Int) * 4 = (4 * n : Nat) := by omega
  have place (i : Nat) : ((4 * n : Nat) : Int) + i + 1 = (4 * n + (i + 1) : Nat) := by omega
  have next (i : Nat) : (i : Int) + 1 = (i + 1 : Nat) := by omega
  have into :
      ∀ i < (4 : Nat), borrowsInto value (value "borrow_in") (wireName "borrow" (3 : Nat)) (i + 1) =
        value (wireName "borrow" i) := by
    intro i small
    interval_cases i <;> rfl
  rw [borrows_iff, popHigher, Formula.holds_append, Bool.and_eq_true, Formula.holds_pair,
    Formula.holds_flatMap, offset]
  simp only [List.mem_range, Formula.holds_pair, Formula.holds_wire, borrowOn, Term.eval,
    Term.eval_xor, Term.eval_and, Term.eval_flipped, Term.wire, place, next]
  constructor
  · rintro ⟨lowest, upper⟩ i small
    rw [into i small]
    cases i with
    | zero => exact lowest
    | succ i =>
        rw [into i (by omega)]
        exact upper i (by omega)
  · intro all
    refine ⟨?_, fun i small => ?_⟩
    · have lowest := all 0 (by decide)
      rwa [into 0 (by decide)] at lowest
    · have upper := all (i + 1) (by omega)
      rwa [into i (by omega), into (i + 1) (by omega)] at upper

theorem holds_pushLogic (value : Assignment) (n : Nat) :
    holds value (stepLogic .push n) = true ↔
      (∀ i < (4 : Nat), value (wireName "sp_inc" (4 * n + i : Nat)) =
        (pointerBits value n i ^^ passed false (pointerBits value n) (firstIn .push value n) i)) ∧
      (n = 0 → value (wireName "carry_out" 0) = passed false (pointerBits value 0) true 4) := by
  rw [stepLogic, firstIn]
  by_cases lowest : n = 0
  · subst lowest
    refine (holds_pushLowest value).trans (and_congr ?_ ⟨fun out _ => out, fun out => out rfl⟩)
    simp only [Nat.mul_zero, Nat.zero_add]
    exact Iff.rfl
  · rw [if_neg lowest, if_neg lowest, holds_pushHigher]
    exact (and_iff_left fun zero => absurd zero lowest).symm

/-- The name of the borrow that leaves a nibble: only the lowest one names it for the next. -/
def lastBorrow (n : Nat) : String :=
  if n = 0 then wireName "borrow_out" 0 else wireName "borrow" (3 : Nat)

theorem holds_popLogic (value : Assignment) (n : Nat) :
    holds value (stepLogic .pop n) = true ↔
      Borrows value n (firstIn .pop value n) (lastBorrow n) := by
  rw [stepLogic, firstIn, lastBorrow]
  by_cases lowest : n = 0
  · subst lowest
    exact holds_popLowest value
  · rw [if_neg lowest, if_neg lowest, if_neg lowest, holds_popHigher]
    exact Iff.rfl

/-! ## Texts of a nibble -/

theorem bracketed_pointer (place : Nat) : (Term.wire "sp" place).Bracketed :=
  Term.bracketed_wire (by decide) place

theorem bracketed_pointerAll (n count : Nat) :
    (Term.group (pointerAll (4 * n : Nat) (count + 1))).Bracketed := by
  rw [pointerAll, List.range_succ_eq_map, List.map_cons]
  exact .group rfl (bracketed_pointer (4 * n))
    (List.forall_mem_map.mpr fun i _ => bracketed_pointer (4 * n + i))

theorem bracketed_pushLowest : ∀ clause ∈ pushLowest 0, clause.Bracketed := by
  have one : (Term.bit true).Bracketed := .bit true
  have all (count : Nat) :
      (Term.group (.group (pointerAll 0 (count + 1)) &&& .bit true)).Bracketed :=
    .pair rfl (bracketed_pointerAll 0 count) one
  have alone : (Term.group (Term.joined .and [.group (.var "sp0" &&& .bit true)])).Bracketed :=
    .group rfl (.pair rfl (.var (by decide)) one) (List.forall_mem_nil _)
  have sum {name bit : String} (named : IsName name ∧ IsName bit) {before : Term}
      (bracketed : before.Bracketed) :
      (Clause.define name (.group (.var bit ^^^ before))).Bracketed :=
    ⟨named.1, .pair rfl (.var named.2) bracketed⟩
  intro clause member
  simp only [pushLowest, List.mem_cons, List.not_mem_nil, or_false] at member
  rcases member with rfl | rfl | rfl | rfl | rfl
  · exact sum (by decide) one
  · exact sum (by decide) alone
  · exact sum (by decide) (all 1)
  · exact sum (by decide) (all 2)
  · exact Clause.bracketed_wire (by decide) 0 (all 3)

theorem bracketed_pushHigher (n : Nat) : ∀ clause ∈ pushHigher n, clause.Bracketed := by
  have offset : (n : Int) * 4 = (4 * n : Nat) := by omega
  have place (i : Nat) : ((4 * n : Nat) : Int) + i + 1 = (4 * n + (i + 1) : Nat) := by omega
  have carry : (Term.var "carry_in").Bracketed := .var (by decide)
  have sum (place : Nat) {before : Term} (bracketed : before.Bracketed) :
      (Clause.wire "sp_inc" place (.group (.wire "sp" place ^^^ before))).Bracketed :=
    Clause.bracketed_wire (by decide) place (.pair rfl (bracketed_pointer place) bracketed)
  rw [pushHigher, offset]
  refine List.forall_mem_cons.mpr ⟨sum (4 * n) carry, List.forall_mem_map.mpr fun i _ => ?_⟩
  rw [place]
  exact sum _ (.pair rfl (bracketed_pointerAll n i) carry)

section Pop

theorem bracketed_difference (place : Nat) {before : Term} (bracketed : before.Bracketed) :
    (Clause.wire "sp_dec" place (.group (.wire "sp" place ^^^ before))).Bracketed :=
  Clause.bracketed_wire (by decide) place (.pair rfl (bracketed_pointer place) bracketed)

theorem bracketed_borrow {word : String} (named : IsName word) (i place : Nat) {before : Term}
    (bracketed : before.Bracketed) :
    (Clause.wire word i (borrowOn before (.wire "sp" place))).Bracketed :=
  Clause.bracketed_wire named i (.pair rfl bracketed (bracketed_pointer place).flipped)

theorem bracketed_popLowest : ∀ clause ∈ popLowest 0, clause.Bracketed := by
  have kept (i : Nat) : (Term.wire "borrow" i).Bracketed := Term.bracketed_wire (by decide) i
  have flipped : (Term.flipped (.wire "sp" (0 : Nat))).Bracketed := (bracketed_pointer 0).flipped
  intro clause member
  simp only [popLowest, List.mem_cons, List.not_mem_nil, or_false] at member
  rcases member with rfl | rfl | rfl | rfl | rfl | rfl | rfl | rfl
  · exact Clause.bracketed_wire (by decide) 0 flipped
  · exact Clause.bracketed_wire (by decide) 0 flipped
  · exact bracketed_difference 1 (kept 0)
  · exact bracketed_borrow (by decide) 1 1 (kept 0)
  · exact bracketed_difference 2 (kept 1)
  · exact bracketed_borrow (by decide) 2 2 (kept 1)
  · exact bracketed_difference 3 (kept 2)
  · exact bracketed_borrow (by decide) 0 3 (kept 2)

theorem bracketed_popHigher (n : Nat) : ∀ clause ∈ popHigher n, clause.Bracketed := by
  have offset : (n : Int) * 4 = (4 * n : Nat) := by omega
  have place (i : Nat) : ((4 * n : Nat) : Int) + i + 1 = (4 * n + (i + 1) : Nat) := by omega
  have next (i : Nat) : (i : Int) + 1 = (i + 1 : Nat) := by omega
  have incoming : (Term.var "borrow_in").Bracketed := .var (by decide)
  rw [popHigher, offset]
  refine List.forall_mem_append.mpr
    ⟨Formula.forall_mem_pair ?_ ?_, List.forall_mem_flatMap.mpr fun i _ => ?_⟩
  · exact bracketed_difference (4 * n) incoming
  · exact bracketed_borrow (by decide) 0 (4 * n) incoming
  · have kept : (Term.wire "borrow" i).Bracketed := Term.bracketed_wire (by decide) i
    rw [place, next]
    exact Formula.forall_mem_pair (bracketed_difference _ kept)
      (bracketed_borrow (by decide) _ _ kept)

end Pop

theorem bracketed_stepLogic (move : StackMove) (n : Nat) :
    ∀ clause ∈ stepLogic move n, clause.Bracketed := by
  cases move with
  | push =>
      rw [stepLogic]
      split
      · next lowest =>
          subst lowest
          exact bracketed_pushLowest
      · exact bracketed_pushHigher n
  | pop =>
      rw [stepLogic]
      split
      · next lowest =>
          subst lowest
          exact bracketed_popLowest
      · exact bracketed_popHigher n

theorem isConstant_stepLogic (move : StackMove) (n : Nat) :
    (stepLogic move n).any Clause.isConstant = false := by
  cases move with
  | push =>
      rw [stepLogic]
      split <;> rfl
  | pop =>
      rw [stepLogic]
      split <;> rfl

def entrySample (move : StackMove) (n : Nat) : List Clause :=
  if n = 0 then [] else [.fix move.incoming false]

theorem isName_incoming (move : StackMove) : IsName move.incoming := by
  cases move <;> decide

theorem supplies_entrySample (move : StackMove) (n : Nat) :
    Supplies [move.incoming] (entrySample move n) := by
  rw [entrySample]
  split
  · exact Formula.supplies_nil (List.forall_mem_singleton.mpr (isName_incoming move))
  · exact Formula.supplies_fix (isName_incoming move) false

theorem wordOf_inputs (move : StackMove) (n : Nat) :
    ∀ name ∈ move.inputs n, Formula.wordOf name ∈ ["sp", "push_data", "carry_in", "borrow_in"] := by
  have listed {word : String} (wordy : Wordy word)
      (member : word ∈ ["sp", "push_data", "carry_in", "borrow_in"]) :
      ∀ name ∈ names word n, Formula.wordOf name ∈ ["sp", "push_data", "carry_in", "borrow_in"] :=
    fun name inRow => by rwa [wordOf_names wordy inRow]
  cases move with
  | push =>
      refine List.forall_mem_append.mpr
        ⟨List.forall_mem_append.mpr ⟨?_, ?_⟩, List.forall_mem_singleton.mpr ?_⟩
      · exact listed (by decide) (by decide)
      · exact listed (by decide) (by decide)
      · decide
  | pop =>
      refine List.forall_mem_append.mpr ⟨?_, List.forall_mem_singleton.mpr ?_⟩
      · exact listed (by decide) (by decide)
      · decide

theorem isName_inputs (move : StackMove) (n : Nat) : ∀ name ∈ move.inputs n, IsName name := by
  have row {word : String} (named : IsName word) : ∀ name ∈ names word n, IsName name :=
    (supplies_samples named n 0).named
  cases move with
  | push =>
      exact List.forall_mem_append.mpr
        ⟨List.forall_mem_append.mpr ⟨row (by decide), row (by decide)⟩,
        List.forall_mem_singleton.mpr (by decide)⟩
  | pop =>
    exact List.forall_mem_append.mpr ⟨row (by decide), List.forall_mem_singleton.mpr (by decide)⟩

theorem holdsBeside_flag (move : StackMove) (value : Assignment) (n : Nat) :
    HoldsBeside (move.inputs n) value [.fix "stack_op" true] ↔ value "stack_op" = true :=
  Formula.holdsBeside_fix fun member => absurd (wordOf_inputs move n _ member) (by decide)

theorem zeros_eq (word : String) (n : Nat) :
    zeros word n = (List.range 4).map fun i => .fix (wireName word (4 * n + i : Nat)) false := by
  rw [zeros, places_eq, List.map_map]
  rfl

theorem holdsBeside_zeros (value : Assignment) (n : Nat) :
    HoldsBeside (StackMove.pop.inputs n) value (zeros "pop_data" n) ↔
      ∀ i < (4 : Nat), value (wireName "pop_data" (4 * n + i : Nat)) = false := by
  have noInput (i : Nat) : wireName "pop_data" (4 * n + i : Nat) ∉ StackMove.pop.inputs n := by
    intro member
    have word := wordOf_inputs .pop n _ member
    rw [Formula.wordOf_wireName (by decide)] at word
    exact absurd word (by decide)
  rw [zeros_eq, HoldsBeside, List.forall_mem_map]
  simp only [List.mem_range]
  refine forall₂_congr fun i _ => ?_
  rw [← Formula.holdsBeside_fix (noInput i), HoldsBeside, List.forall_mem_singleton]

theorem constraints_pushNibble (n : Nat) :
    (pushNibble n).constraints =
      (samples "sp" n (n * 2) ++ samples "push_data" n n ++ [Clause.fix "stack_op" true] ++
      (entrySample .push n ++ stepLogic .push n)).map Clause.text := by
  cases n with
  | zero => rfl
  | succ n => rfl

theorem constraints_popNibble (n : Nat) :
    (popNibble n).constraints =
      (samples "sp" n (n * 2 + 1) ++ (entrySample .pop n ++ stepLogic .pop n) ++
      zeros "pop_data" n ++ [Clause.fix "stack_op" true]).map Clause.text := by
  cases n with
  | zero => rfl
  | succ n => rfl

/-- Of the clauses on the pointer, those remain that do not give a sample of what comes in. -/
theorem holdsBeside_step (move : StackMove) (value : Assignment) (n : Nat) :
    HoldsBeside (move.inputs n) value (entrySample move n ++ stepLogic move n) ↔
      holds value (stepLogic move n) = true := by
  have known : [move.incoming] ⊆ move.inputs n := by
    cases move with
    | push => exact List.subset_append_right _ _
    | pop => exact List.subset_append_right _ _
  rw [Formula.holdsBeside_append, Formula.holdsBeside_iff_holds (isConstant_stepLogic move n)]
  exact and_iff_right ((supplies_entrySample move n).holdsBeside known)

theorem bracketed_step (move : StackMove) (n : Nat) :
    ∀ clause ∈ entrySample move n ++ stepLogic move n, clause.Bracketed :=
  List.forall_mem_append.mpr ⟨(supplies_entrySample move n).bracketed, bracketed_stepLogic move n⟩

theorem holds_pushNibble (value : Assignment) (n : Nat) :
    HoldsOpened (StackMove.push.inputs n) value (pushNibble n).constraints ↔
      value "stack_op" = true ∧ holds value (stepLogic .push n) = true := by
  have samples := (supplies_samples (by decide : IsName "sp") n (n * 2)).append
    (supplies_samples (by decide : IsName "push_data") n n)
  have flag := Formula.supplies_fix (by decide : IsName "stack_op") true
  have given : HoldsBeside (StackMove.push.inputs n) value _ :=
    samples.holdsBeside (List.subset_append_left _ _)
  have bracketed := List.forall_mem_append.mpr
    ⟨List.forall_mem_append.mpr ⟨samples.bracketed, flag.bracketed⟩, bracketed_step .push n⟩
  rw [constraints_pushNibble, Formula.holdsOpened_iff bracketed (isName_inputs .push n),
    Formula.holdsBeside_append, Formula.holdsBeside_append, holdsBeside_flag, holdsBeside_step]
  exact ⟨fun all => ⟨all.1.2, all.2⟩, fun all => ⟨⟨given, all.1⟩, all.2⟩⟩

theorem holds_popNibble (value : Assignment) (n : Nat) :
    HoldsOpened (StackMove.pop.inputs n) value (popNibble n).constraints ↔
      value "stack_op" = true ∧ holds value (stepLogic .pop n) = true ∧
        ∀ i < (4 : Nat), value (wireName "pop_data" (4 * n + i : Nat)) = false := by
  have samples := supplies_samples (by decide : IsName "sp") n (n * 2 + 1)
  have flag := Formula.supplies_fix (by decide : IsName "stack_op") true
  have zero : ∀ clause ∈ zeros "pop_data" n, clause.Bracketed := by
    rw [zeros_eq]
    exact List.forall_mem_map.mpr fun i _ => ⟨(by decide : IsName "pop_data").wire _, .bit false⟩
  have given : HoldsBeside (StackMove.pop.inputs n) value _ :=
    samples.holdsBeside (List.subset_append_left _ _)
  have bracketed := List.forall_mem_append.mpr ⟨List.forall_mem_append.mpr
    ⟨List.forall_mem_append.mpr ⟨samples.bracketed, bracketed_step .pop n⟩, zero⟩, flag.bracketed⟩
  rw [constraints_popNibble, Formula.holdsOpened_iff bracketed (isName_inputs .pop n),
    Formula.holdsBeside_append, Formula.holdsBeside_append, Formula.holdsBeside_append,
    holdsBeside_flag, holdsBeside_zeros, holdsBeside_step]
  exact ⟨fun all => ⟨all.2, all.1.1.2, all.1.2⟩, fun all => ⟨⟨⟨given, all.2.1⟩, all.2.2⟩, all.1⟩⟩

/-- What a nibble says besides what becomes of the pointer. -/
def Beside : StackMove → Assignment → Nat → Prop
  | .push, value, _ => value "stack_op" = true
  | .pop, value, n =>
    value "stack_op" = true ∧
      (∀ i < (4 : Nat), value (wireName "pop_data" (4 * n + i : Nat)) = false) ∧
      ∀ i < (4 : Nat), (n = 0 → i ≠ 3) →
        value (wireName "borrow" i) =
          passed true (pointerBits value n) (firstIn .pop value n) (i + 1)

/-- A nibble of the pointer is stepped if something comes into it, and the lowest one says what
leaves it. -/
theorem holds_stackNibble (move : StackMove) (value : Assignment) (n : Nat) :
    HoldsOpened (move.inputs n) value (move.nibble n).constraints ↔
      (∀ i < (4 : Nat), value (wireName move.result (4 * n + i : Nat)) =
        (pointerBits value n i ^^
          passed move.falling (pointerBits value n) (firstIn move value n) i)) ∧
      (n = 0 → value (wireName move.outgoing 0) =
        passed move.falling (pointerBits value 0) true 4) ∧
      Beside move value n := by
  cases move with
  | push =>
      refine (holds_pushNibble value n).trans ?_
      rw [holds_pushLogic]
      exact ⟨fun all => ⟨all.2.1, all.2.2, all.1⟩, fun all => ⟨all.2.2, all.1, all.2.1⟩⟩
  | pop =>
      refine (holds_popNibble value n).trans ?_
      rw [holds_popLogic]
      constructor
      · rintro ⟨flag, nibble, data⟩
        refine ⟨nibble.results, ?_, flag, data, ?_⟩
        · rintro rfl
          exact nibble.leaves
        · intro i small upper
          by_cases last : i = 3
          · subst last
            have leaves := nibble.leaves
            rwa [lastBorrow, if_neg fun zero => upper zero rfl] at leaves
          · exact nibble.inner i (by omega)
      · rintro ⟨results, out, flag, data, borrows⟩
        refine ⟨flag, ⟨results, fun i small => borrows i (by omega) fun _ => by omega, ?_⟩, data⟩
        rw [lastBorrow]
        split
        · next lowest =>
            subst lowest
            exact out rfl
        · next higher => exact borrows 3 (by decide) fun zero => absurd zero higher

end Zkvm.Component
