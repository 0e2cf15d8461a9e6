import Zkvm.Contract.Instruction.Comparison
import Zkvm.Proofs.Component.Pointer
import Zkvm.Proofs.Formula.Blanks

/-!
# Equality of words in nibbles

A nibble of a comparison says bit by bit whether its operands are equal; its flag `neq`, in spite of
the name, says that all four bits are.  The aggregator joins the flags of all nibbles, so its result
is the equality of the words, however many nibbles they have.
-/
set_option autoImplicit false

namespace Zkvm.Contract.Instruction

open Formula (IsName Wordy holds ofCells wireName wordOf HoldsOpened HoldsBeside Supplies)
open Component (within_of_word within_wire forall_lt_four)

/-- The comparisons that only ask whether two words are equal. -/
inductive EqualityTest where
  | equal
  | unequal

namespace EqualityTest

def title : EqualityTest → String
  | .equal => "EQ"
  | .unequal => "NEQ"

def tells {width : Nat} (x y : BitVec width) : EqualityTest → Bool
  | .equal => decide (x = y)
  | .unequal => decide (x ≠ y)

end EqualityTest

/-! ## Names -/

section Names
variable {word : String} (n i : Nat)

theorem isName_spacedName (named : IsName word) : IsName (spacedName word n i) :=
  named.cell n i

theorem bracketed_spaced (named : IsName word) : (spaced word n i).Bracketed :=
  .var (isName_spacedName n i named)

theorem wordOf_spacedName (wordy : Wordy word) : wordOf (spacedName word n i) = word :=
  Formula.wordOf_cell wordy n i

theorem ofCells_spacedName (wordy : Wordy word) (cells : String → Nat → Nat → Bool) :
    ofCells cells (spacedName word n i) = cells word n i :=
  Formula.ofCells_cell wordy n i cells

end Names

def spacedRow (value : Assignment) (word : String) (count : Nat) : BitVec (4 * count) :=
  joinNibbles (fun n i => value (spacedName word n i)) count

def spacedNames (n : Nat) : List String :=
  (List.range 4).flatMap fun i => [spacedName "a" n i, spacedName "b" n i]

def comparisonInputs (n : Nat) : List String :=
  spacedNames n ++ [wireName "bin" n]

def comparisonLocals : List String :=
  ["eq0", "eq1", "eq2", "eq3"]

def nibbleFlags (count : Nat) : List String :=
  (List.range count).map fun n : Nat => wireName "nibble_eq" n

/-- The assignment satisfies the nibbles of a comparison of two words and its aggregator, which
takes the flags of the nibbles.  What a nibble says about single bits is read in an assignment of
its own. -/
structure Compares (test : EqualityTest) (last : Nat) (x y : BitVec (4 * (last + 1)))
    (value : Assignment) (inner : Nat → Assignment) : Prop where
  left : spacedRow value "a" (last + 1) = x
  right : spacedRow value "b" (last + 1) = y
  nibbles : ∀ n < last + 1,
    HoldsOpened (comparisonInputs n) (Component.within comparisonLocals (inner n) value)
      (comparisonNibble n test.title).contract.constraints
  links : ∀ n < last + 1, value (wireName "nibble_eq" n) = value (wireName "neq" n)
  result : HoldsOpened (nibbleFlags (last + 1)) value
    (comparisonAggregator (last + 1 : Nat) test.title).contract.constraints

/-! ## One nibble -/

theorem supplies_spacedInputs (n : Nat) : Supplies (spacedNames n) (spacedInputs n) :=
  supplies_pairs (fun i => isName_spacedName n i (by decide))
    (fun i => isName_spacedName n i (by decide))

theorem supplies_comparisonBorrow (n : Nat) : Supplies [wireName "bin" n] (comparisonBorrow n) := by
  have named : IsName (wireName "bin" n) := (by decide : IsName "bin").wire n
  rw [comparisonBorrow]
  split
  · exact Formula.supplies_fix named false
  · exact Formula.supplies_nil (List.forall_mem_singleton.mpr named)

theorem eval_equalBits (value : Assignment) (a b : Term) :
    (equalBits a b).eval value = (a.eval value == b.eval value) := by
  simp only [equalBits, Term.eval, Term.eval_or, Term.eval_xor, Term.eval_flipped]
  cases a.eval value <;> cases b.eval value <;> rfl

def equalityClauses (n : Nat) : List Clause :=
  ((List.range 4).map fun (i : Nat) =>
    .wire "eq" i (equalBits (spaced "a" n i) (spaced "b" n i))) ++
    [.wire "neq" n (.group (.wire "eq" 0 &&& .wire "eq" 1 &&& .wire "eq" 2 &&& .wire "eq" 3))]

def borrowOut (n : Nat) : Term :=
  if 0 < (n : Int) then .wire "bin" n else .bit false

theorem comparisonLogic_eq (n : Nat) :
    comparisonLogic n = equalityClauses n ++ [.wire "bout" n (borrowOut n)] := by
  rw [equalityClauses, List.append_assoc]
  rfl

theorem eval_borrowOut (value : Assignment) (n : Nat) :
    (borrowOut n).eval value = (decide (0 < n) && value (wireName "bin" n)) := by
  by_cases higher : 0 < n
  · rw [borrowOut, if_pos (by omega), decide_eq_true higher, Bool.true_and]
    rfl
  · rw [borrowOut, if_neg (by omega), decide_eq_false higher, Bool.false_and]
    rfl

theorem bracketed_equalBits {a b : Term} (left : a.Bracketed) (right : b.Bracketed) :
    (equalBits a b).Bracketed :=
  .pair rfl (.sum left right (.bit true)) (.sum left.flipped right.flipped (.bit true))

theorem bracketed_comparisonLogic (n : Nat) : ∀ clause ∈ comparisonLogic n, clause.Bracketed := by
  have equal (i : Nat) : (Term.wire "eq" i).Bracketed := Term.bracketed_wire (by decide) i
  have out : (borrowOut n).Bracketed := by
    rw [borrowOut]
    split
    · exact Term.bracketed_wire (by decide) n
    · exact .bit false
  have all :
      (Term.group
        (.joined .and [.wire "eq" 0, .wire "eq" 1, .wire "eq" 2, .wire "eq" 3])).Bracketed := by
    refine .group rfl (equal 0) (List.forall_mem_cons.mpr ⟨equal 1, ?_⟩)
    exact List.forall_mem_cons.mpr ⟨equal 2, List.forall_mem_singleton.mpr (equal 3)⟩
  refine List.forall_mem_append.mpr
    ⟨List.forall_mem_map.mpr fun i _ => ?_, Formula.forall_mem_pair ?_ ?_⟩
  · exact Clause.bracketed_wire (by decide) i
      (bracketed_equalBits (bracketed_spaced n i (by decide)) (bracketed_spaced n i (by decide)))
  · exact Clause.bracketed_wire (by decide) n all
  · exact Clause.bracketed_wire (by decide) n out

theorem wordOf_of_mem_comparisonInputs {n : Nat} {name : String}
    (member : name ∈ comparisonInputs n) :
    wordOf name ∈ ["a", "b", "bin"] := by
  rcases List.mem_append.mp member with operand | borrow
  · obtain ⟨i, _, pair⟩ := List.mem_flatMap.mp operand
    rcases List.mem_pair.mp pair with rfl | rfl
    · rw [wordOf_spacedName n i (by decide)]
      decide
    · rw [wordOf_spacedName n i (by decide)]
      decide
  · rw [List.mem_singleton.mp borrow, Formula.wordOf_wireName (by decide)]
    decide

theorem holds_equalityClauses (value : Assignment) (n : Nat) :
    holds value (equalityClauses n) = true ↔
      (∀ i < (4 : Nat), value (wireName "eq" i) =
        (value (spacedName "a" n i) == value (spacedName "b" n i))) ∧
        value (wireName "neq" n) = (value "eq0" && value "eq1" && value "eq2" && value "eq3") := by
  rw [equalityClauses, Formula.holds_append, Bool.and_eq_true, Formula.holds_singleton,
    Formula.holds_wire, Formula.holds_map]
  simp only [List.mem_range, Formula.holds_wire, eval_equalBits]
  rfl

theorem holdsBeside_borrowOut (value : Assignment) (n : Nat) :
    HoldsBeside (comparisonInputs n) value [.wire "bout" n (borrowOut n)] ↔
      value (wireName "bout" n) = (decide (0 < n) && value (wireName "bin" n)) := by
  have apart : wireName "bout" n ∉ comparisonInputs n := by
    intro member
    have listed := wordOf_of_mem_comparisonInputs member
    rw [Formula.wordOf_wireName (by decide)] at listed
    exact absurd listed (by decide)
  rw [← eval_borrowOut, borrowOut]
  split
  · rw [Formula.holdsBeside_iff_holds rfl, Formula.holds_singleton, Formula.holds_wire]
  · exact Formula.holdsBeside_fix apart

/-- A nibble without its inputs says which bits are equal and whether all four are. -/
theorem holds_comparisonNibble (value : Assignment) (n : Nat) (operation : String) :
    HoldsOpened (comparisonInputs n) value (comparisonNibble n operation).contract.constraints ↔
      ((∀ i < (4 : Nat), value (wireName "eq" i) =
        (value (spacedName "a" n i) == value (spacedName "b" n i))) ∧
        value (wireName "neq" n) = (value "eq0" && value "eq1" && value "eq2" && value "eq3")) ∧
        value (wireName "bout" n) = (decide (0 < n) && value (wireName "bin" n)) := by
  have inputs : Supplies (comparisonInputs n) (spacedInputs n ++ comparisonBorrow n) :=
    (supplies_spacedInputs n).append (supplies_comparisonBorrow n)
  refine (inputs.holdsOpened_append (bracketed_comparisonLogic n)).trans ?_
  rw [comparisonLogic_eq, Formula.holdsBeside_append, Formula.holdsBeside_iff_holds rfl,
    holds_equalityClauses, holdsBeside_borrowOut]

/-- All four bits are equal if the nibbles are. -/
theorem all_bits_eq {width n : Nat} {x y : BitVec width} {value : Assignment}
    (bits : ∀ i < (4 : Nat), value (wireName "eq" i) =
      (x.getLsbD (4 * n + i) == y.getLsbD (4 * n + i))) :
    (value "eq0" && value "eq1" && value "eq2" && value "eq3") =
      decide (nibbleOf x n = nibbleOf y n) := by
  obtain ⟨zero, one, two, three⟩ := forall_lt_four.mp bits
  have names : (value "eq0" && value "eq1" && value "eq2" && value "eq3") =
    (value (wireName "eq" (0 : Nat)) && value (wireName "eq" (1 : Nat)) &&
      value (wireName "eq" (2 : Nat)) && value (wireName "eq" (3 : Nat))) := rfl
  rw [names, zero, one, two, three, Bool.eq_iff_iff, decide_eq_true_eq, nibbleOf_eq_iff,
    forall_lt_four]
  simp only [Bool.and_eq_true, beq_iff_eq, and_assoc]

/-! ## The aggregator -/

def EqualityTest.term (count : Nat) : EqualityTest → Term
  | .equal => allEqual count
  | .unequal => .group (.gate .wideXor (allEqual count) (.bit true))

theorem eval_allEqual (value : Assignment) (count : Nat) :
    (allEqual count).eval value =
      (List.range count).all fun n : Nat => value (wireName "nibble_eq" n) := by
  rw [allEqual, Term.eval, Term.eval_joined_all fun _ _ => rfl, List.all_map]
  rfl

section Flags
variable (last : Nat)

theorem allEqual_eq : allEqual (last + 1 : Nat) = .group (.joined .wideAnd (.wire "nibble_eq" 0 ::
    (List.range last).map fun n => .wire "nibble_eq" (n + 1 : Nat))) := by
  have places : Formula.places (last + 1 : Nat) = 0 :: (List.range last).map Nat.succ :=
    List.range_succ_eq_map
  rw [allEqual, places, List.map_cons, List.map_map]
  rfl

theorem filled_allEqual : (allEqual (last + 1 : Nat)).Filled := by
  have flag (n : Nat) : (Term.wire "nibble_eq" n).Filled :=
    .var ((by decide : IsName "nibble_eq").wire n)
  rw [allEqual_eq]
  exact .group (Term.filled_joined _ (flag 0) (List.forall_mem_map.mpr fun n _ => flag (n + 1)))

theorem bracketed_allEqual : (allEqual (last + 1 : Nat)).narrow.Bracketed := by
  have flag (n : Nat) : (Term.wire "nibble_eq" n).narrow.Bracketed :=
    Term.bracketed_wire (by decide) n
  rw [allEqual_eq, Term.narrow, Term.narrow_joined]
  refine .group rfl (flag 0) (List.forall_mem_map.mpr ?_)
  exact List.forall_mem_map.mpr fun n _ => flag (n + 1)

theorem filled_term (test : EqualityTest) : (test.term (last + 1)).Filled := by
  cases test with
  | equal => exact filled_allEqual last
  | unequal => exact .group (.gate (filled_allEqual last) (.bit true))

theorem bracketed_term (test : EqualityTest) : (test.term (last + 1)).narrow.Bracketed := by
  cases test with
  | equal => exact bracketed_allEqual last
  | unequal => exact .pair rfl (bracketed_allEqual last) (.bit true)

end Flags

theorem constraints_comparisonAggregator (test : EqualityTest) (count : Nat) :
    (comparisonAggregator count test.title).contract.constraints =
      (aggregatorInputs count).map Clause.text ++
        [(Clause.define "result" (test.term count)).text] := by
  cases test with
  | equal => exact List.map_append
  | unequal => exact List.map_append

theorem wordOf_of_mem_nibbleFlags {count : Nat} {name : String}
    (member : name ∈ nibbleFlags count) :
    wordOf name = "nibble_eq" := by
  obtain ⟨n, _, rfl⟩ := List.mem_map.mp member
  exact Formula.wordOf_wireName (by decide) n

theorem not_mem_nibbleFlags {name : String} (other : wordOf name ≠ "nibble_eq") (count : Nat) :
    name ∉ nibbleFlags count :=
  fun member => other (wordOf_of_mem_nibbleFlags member)

theorem supplies_nibbleFlags (count : Nat) : Supplies (nibbleFlags count)
    ((Formula.places count).map fun (i : Nat) => .fixWire "nibble_eq" i false) where
  named := List.forall_mem_map.mpr fun n _ => (by decide : IsName "nibble_eq").wire n
  assigns :=
    List.forall_mem_map.mpr fun n inside => ⟨_, List.mem_map.mpr ⟨n, inside, rfl⟩, false, rfl⟩

theorem holds_aggregatorInputs (value : Assignment) (count : Nat) :
    HoldsOpened (nibbleFlags count) value ((aggregatorInputs count).map Clause.text) ↔
      value "sign_diff" = false ∧ value "final_borrow" = false := by
  have rest :
      ∀ clause ∈ [Clause.fix "sign_diff" false, .fix "final_borrow" false], clause.Bracketed :=
    Formula.forall_mem_pair ⟨by decide, .bit false⟩ ⟨by decide, .bit false⟩
  refine ((supplies_nibbleFlags count).holdsOpened_append rest).trans ?_
  rw [← List.singleton_append, Formula.holdsBeside_append,
    Formula.holdsBeside_fix (not_mem_nibbleFlags (by decide) count),
    Formula.holdsBeside_fix (not_mem_nibbleFlags (by decide) count)]

theorem holds_comparisonAggregator (test : EqualityTest) (value : Assignment) (last : Nat) :
    HoldsOpened (nibbleFlags (last + 1)) value
        (comparisonAggregator (last + 1 : Nat) test.title).contract.constraints ↔
      (value "sign_diff" = false ∧ value "final_borrow" = false) ∧
        value "result" = (test.term (last + 1)).eval value := by
  rw [constraints_comparisonAggregator, Formula.holdsOpened_append, holds_aggregatorInputs,
    Formula.holdsOpened_define (by decide) (supplies_nibbleFlags (last + 1)).named
      (not_mem_nibbleFlags (by decide) (last + 1)) (filled_term last test)
        (bracketed_term last test)]

/-- The aggregator tells what the test asks, if the flags tell which nibbles are equal. -/
theorem eval_term {test : EqualityTest} {count : Nat} {x y : BitVec (4 * count)}
    {value : Assignment}
    (flags : ∀ n < count, value (wireName "nibble_eq" n) = decide (nibbleOf x n = nibbleOf y n)) :
    (test.term count).eval value = test.tells x y := by
  have all : (allEqual count).eval value = decide (x = y) := by
    rw [eval_allEqual, Bool.eq_iff_iff, List.all_eq_true, decide_eq_true_eq, eq_iff_nibbles]
    refine forall_congr' fun n => ?_
    rw [List.mem_range]
    refine forall_congr' fun inside => ?_
    rw [flags n inside, decide_eq_true_eq]
  cases test with
  | equal => exact all
  | unequal =>
      rw [EqualityTest.term, Term.eval, Term.eval, all, EqualityTest.tells, decide_not]
      exact Bool.xor_true _

/-! ## All nibbles -/

section Shared
variable (inner value : Assignment) (n : Nat)

theorem within_equal {i : Nat} (small : i < 4) :
    Component.within comparisonLocals inner value (wireName "eq" i) = inner (wireName "eq" i) := by
  have own : ∀ i < (4 : Nat), wireName "eq" i ∈ comparisonLocals := by decide
  exact if_pos (own i small)

theorem within_spaced {word : String} (wordy : Wordy word) (other : word ≠ "eq") (i : Nat) :
    Component.within comparisonLocals inner value (spacedName word n i) =
      value (spacedName word n i) := by
  refine within_of_word ?_
  rw [wordOf_spacedName n i wordy]
  have own : ∀ name ∈ comparisonLocals, wordOf name = "eq" := by decide
  intro name member same
  exact other (same.symm.trans (own name member))

end Shared

section Compared
variable {test : EqualityTest} {last : Nat} {x y : BitVec (4 * (last + 1))} {value : Assignment}
  {inner : Nat → Assignment} (compares : Compares test last x y value inner)
include compares

/-- The flag of a nibble tells whether the operands are equal there. -/
theorem Compares.flag_eq {n : Nat} (inside : n < last + 1) :
    value (wireName "nibble_eq" n) = decide (nibbleOf x n = nibbleOf y n) := by
  obtain ⟨⟨bits, all⟩, _⟩ := (holds_comparisonNibble _ n test.title).mp (compares.nibbles n inside)
  have left := joinNibbles_eq_iff.mp compares.left n inside
  have right := joinNibbles_eq_iff.mp compares.right n inside
  have equal :
      ∀ i < (4 : Nat), Component.within comparisonLocals (inner n) value (wireName "eq" i) =
        (x.getLsbD (4 * n + i) == y.getLsbD (4 * n + i)) := by
    intro i small
    rw [bits i small, within_spaced _ _ _ (by decide) (by decide),
      within_spaced _ _ _ (by decide) (by decide), left i small, right i small]
  rw [compares.links n inside, ← all_bits_eq equal, ← all, within_wire (by decide) (by decide)]

theorem Compares.result_eq : value "result" = test.tells x y := by
  rw [((holds_comparisonAggregator test value last).mp compares.result).2]
  exact eval_term fun n inside => compares.flag_eq inside

end Compared

/-! ## An assignment -/

def comparisonCells (test : EqualityTest) {width : Nat} (x y : BitVec width) (word : String)
    (n i : Nat) : Bool :=
  if word = "a" then x.getLsbD (4 * n + i)
  else if word = "b" then y.getLsbD (4 * n + i)
  else if word = "neq" then decide (nibbleOf x n = nibbleOf y n)
  else if word = "nibble_eq" then decide (nibbleOf x n = nibbleOf y n)
  else if word = "result" then test.tells x y
  else false

def equalityCells {width : Nat} (x y : BitVec width) (n : Nat) : String → Nat → Nat → Bool :=
  fun _ i _ => x.getLsbD (4 * n + i) == y.getLsbD (4 * n + i)

section Cells
variable (test : EqualityTest) {width : Nat} (x y : BitVec width) (n i : Nat)

theorem comparisonCells_left :
    ofCells (comparisonCells test x y) (spacedName "a" n i) = x.getLsbD (4 * n + i) :=
  ofCells_spacedName n i (by decide) _

theorem comparisonCells_right :
    ofCells (comparisonCells test x y) (spacedName "b" n i) = y.getLsbD (4 * n + i) :=
  ofCells_spacedName n i (by decide) _

theorem comparisonCells_flag :
    ofCells (comparisonCells test x y) (wireName "nibble_eq" n) =
      decide (nibbleOf x n = nibbleOf y n) :=
  Formula.ofCells_wireName (by decide) n _

theorem comparisonCells_neq :
    ofCells (comparisonCells test x y) (wireName "neq" n) = decide (nibbleOf x n = nibbleOf y n) :=
  Formula.ofCells_wireName (by decide) n _

theorem comparisonCells_incoming : ofCells (comparisonCells test x y) (wireName "bin" n) = false :=
  Formula.ofCells_wireName (by decide) n _

theorem comparisonCells_outgoing : ofCells (comparisonCells test x y) (wireName "bout" n) = false :=
  Formula.ofCells_wireName (by decide) n _

theorem equalityCells_bit : ofCells (equalityCells x y n) (wireName "eq" i) =
    (x.getLsbD (4 * n + i) == y.getLsbD (4 * n + i)) :=
  Formula.ofCells_wireName (by decide) i _

end Cells

theorem compares_comparisonCells (test : EqualityTest) (last : Nat)
    (x y : BitVec (4 * (last + 1))) :
    Compares test last x y (ofCells (comparisonCells test x y)) fun n =>
      ofCells (equalityCells x y n) where
  left := joinNibbles_eq_iff.mpr fun n _ i _ => comparisonCells_left test x y n i
  right := joinNibbles_eq_iff.mpr fun n _ i _ => comparisonCells_right test x y n i
  nibbles n _ := by
    have bits : ∀ i < (4 : Nat), Component.within comparisonLocals (ofCells (equalityCells x y n))
        (ofCells (comparisonCells test x y)) (wireName "eq" i) =
        (x.getLsbD (4 * n + i) == y.getLsbD (4 * n + i)) := by
      intro i small
      rw [within_equal _ _ small, equalityCells_bit]
    refine (holds_comparisonNibble _ n test.title).mpr ⟨⟨fun i small => ?_, ?_⟩, ?_⟩
    · rw [bits i small, within_spaced _ _ _ (by decide) (by decide),
        within_spaced _ _ _ (by decide) (by decide), comparisonCells_left, comparisonCells_right]
    · rw [all_bits_eq bits, within_wire (by decide) (by decide), comparisonCells_neq]
    · rw [within_wire (by decide) (by decide), within_wire (by decide) (by decide),
        comparisonCells_outgoing, comparisonCells_incoming, Bool.and_false]
  links n _ := by rw [comparisonCells_flag, comparisonCells_neq]
  result := by
    refine (holds_comparisonAggregator test _ last).mpr ⟨⟨rfl, rfl⟩, ?_⟩
    rw [eval_term fun n _ => comparisonCells_flag test x y n]
    rfl

/-- The parts of a comparison are its nibbles and the aggregator, however its name is spelled. -/
theorem parts_comparison {test : EqualityTest} {operation : String}
    (named : Text.upper operation = test.title) (count : Nat) :
    (comparison count operation).map Prod.snd =
      (List.range count).map (fun n : Nat => comparisonNibble n test.title) ++
        [comparisonAggregator count test.title] := by
  simp only [comparison, eachNibble, named, List.map_append, List.map_map]
  rfl

/-- The nibbles of a test for equality and their aggregator, which are all its parts, tell whether
two words are equal, whatever number of nibbles the words have: all operands can be compared, and
the result is the right one. -/
theorem nibbles_compare (test : EqualityTest) (last : Nat) (x y : BitVec (4 * (last + 1))) :
    (∀ operation, Text.upper operation = test.title →
      (comparison (last + 1 : Nat) operation).map Prod.snd =
        (List.range (last + 1)).map (fun n : Nat => comparisonNibble n test.title) ++
        [comparisonAggregator (last + 1 : Nat) test.title]) ∧
    (∃ value inner, Compares test last x y value inner) ∧
    ∀ value inner, Compares test last x y value inner → value "result" = test.tells x y := by
  refine ⟨fun operation named => parts_comparison named (last + 1), ?_, ?_⟩
  · exact ⟨_, _, compares_comparisonCells test last x y⟩
  · exact fun value inner compares => compares.result_eq

end Zkvm.Contract.Instruction
