import Zkvm.Component.System
import Zkvm.Proofs.Component.Advance

/-!
# Shifts

Eight nibbles and the links between them shift a word up by one place.  Downwards the nibbles do
their part as well, but a link reads the bit that leaves the nibble it leads to: the top bit of such
a nibble is its own lowest bit, and the top bit of the lowest nibble, which hands on nothing, is
left open.  With links that read the nibble they come from, the word is shifted down by one place.
-/
set_option autoImplicit false

namespace Zkvm.Component

open Formula (IsName Wordy holds ofRows wireName row HoldsOpened Supplies)

inductive Direction where
  | up
  | down

namespace Direction

def instruction : Direction → String
  | .up => "SHL"
  | .down => "SHR"

def nibble : Direction → Int → Component
  | .up => shlNibble
  | .down => shrNibble

/-- The link between a nibble and the next: upwards it leads to the next, downwards it comes from
there. -/
def link : Direction → Nat → Component
  | .up, n => shlCarryLink n (n + 1 : Nat)
  | .down, n => shrCarryLink (n + 1 : Nat) n

def target : Direction → Nat → Nat
  | .up, n => n + 1
  | .down, n => n

def entry : Direction → Nat
  | .up => 0
  | .down => 7

/-! Of the four places of a nibble one takes the bit that comes in, the others read a place beside
them, and the bit of one leaves the nibble. -/

def enters : Direction → Nat
  | .up => 0
  | .down => 3

def leaves : Direction → Nat
  | .up => 3
  | .down => 0

def reads : Direction → Nat → Nat
  | .up, i => i - 1
  | .down, i => i + 1

/-- A nibble hands the bit that leaves it on to another one. -/
def handsOn : Direction → Nat → Bool
  | .up, n => n < 7
  | .down, n => 0 < n

/-- The name of the bit that is shifted out of the word. -/
def lost : Direction → String
  | .up => "overflow"
  | .down => "underflow"

def outName (d : Direction) (n : Nat) : String :=
  if d.handsOn n then wireName "cout" n else d.lost

end Direction

theorem ofInstruction_shift (d : Direction) :
    ofInstruction d.instruction = (List.range 8).map (fun n : Nat => d.nibble n) ++
      (List.range 7).map d.link := by
  cases d <;> rfl

/-- The inputs of a nibble; where a zero is shifted in, the bit that comes in is none. -/
def shiftInputs (d : Direction) (n : Nat) : List String :=
  names "a" n ++ names "b" n ++ if n = d.entry then [] else ["cin"]

def handedBits : List String :=
  (List.range 8).map fun n : Nat => wireName "cout" n

/-- The assignment satisfies the nibbles of a shift of this word; the name `cin` is read by every
nibble as its own. -/
structure ShiftsEach (d : Direction) (a : BitVec 32) (value : Assignment) (own : Nat → Bool) :
    Prop where
  operand : row value "a" 32 = a
  nibbles : ∀ n < (8 : Nat),
    HoldsOpened (shiftInputs d n) (Function.update value "cin" (own n)) (d.nibble n).constraints

/-- It satisfies the links as well, each with the nibble that it leads to. -/
structure Shifts (d : Direction) (a : BitVec 32) (value : Assignment) (own : Nat → Bool) : Prop
    extends ShiftsEach d a value own where
  links : ∀ n < (7 : Nat),
    HoldsOpened handedBits (Function.update value "cin" (own (d.target n))) (d.link n).constraints

/-- Every nibble but the highest is handed the bit that leaves the one above. -/
def LinkedFromAbove (value : Assignment) (own : Nat → Bool) : Prop :=
  ∀ n < (7 : Nat), own n = value (wireName "cout" (n + 1 : Nat))

/-! ## One nibble -/

theorem supplies_operandSamples (n : Nat) :
    Supplies (names "a" n ++ names "b" n) (operandSamples n (n * 4)) where
  named := List.forall_mem_append.mpr
    ⟨(supplies_samples (by decide) n 0).named, (supplies_samples (by decide) n 0).named⟩
  assigns := by
    refine List.forall_mem_flatMap.mpr fun i member =>
      List.forall_mem_cons.mpr ⟨?_, List.forall_mem_singleton.mpr ?_⟩
    · exact ⟨_, List.mem_append_left _ (mem_names n (List.mem_range.mp member)), _, rfl⟩
    · exact ⟨_, List.mem_append_right _ (mem_names n (List.mem_range.mp member)), _, rfl⟩

def shiftLogic : Direction → Nat → List Clause
  | .up, n => shiftUp n ++ [shiftedOutAbove n]
  | .down, n => shiftDown n ++ [shiftedOutBelow n]

theorem constraints_shift (d : Direction) (n : Nat) :
    (d.nibble n).constraints =
      (operandSamples n (n * 4) ++ ([Clause.fix "cin" false] ++ shiftLogic d n)).map
        Clause.text := by
  cases d <;> simp only [shiftLogic, ← List.append_assoc] <;> rfl

theorem shiftLogic_eq (d : Direction) (n : Nat) :
    shiftLogic d n = (List.range 4).map (fun i => .wire "r" (4 * n + i : Nat)
      (if i = d.enters then .var "cin" else .wire "a" (4 * n + d.reads i : Nat))) ++
      [.define (d.outName n) (.wire "a" (4 * n + d.leaves : Nat))] := by
  have offset : (n : Int) * 4 = (4 * n : Nat) := by omega
  cases d with
  | up =>
      have bound : ((n : Int) < 7) = (Direction.up.handsOn n = true) := by
        simp only [Direction.handsOn, decide_eq_true_eq]
        exact propext (by omega)
      rw [shiftLogic, shiftUp, shiftedOutAbove, offset]
      simp only [bound]
      rfl
  | down =>
      have bound : (0 < (n : Int)) = (Direction.down.handsOn n = true) := by
        simp only [Direction.handsOn, decide_eq_true_eq]
        exact propext (by omega)
      rw [shiftLogic, shiftDown, shiftedOutBelow, offset]
      simp only [bound]
      rfl

theorem isName_outName (d : Direction) (n : Nat) : IsName (d.outName n) := by
  rw [Direction.outName]
  split
  · exact (by decide : IsName "cout").wire n
  · cases d <;> decide

theorem wordOf_outName (d : Direction) (n : Nat) :
    Formula.wordOf (d.outName n) ≠ Formula.wordOf "cin" := by
  rw [Direction.outName]
  split
  · rw [Formula.wordOf_wireName (by decide)]
    decide
  · cases d <;> decide

theorem bracketed_shiftLogic (d : Direction) (n : Nat) :
    ∀ clause ∈ shiftLogic d n, clause.Bracketed := by
  rw [shiftLogic_eq]
  refine List.forall_mem_append.mpr
    ⟨List.forall_mem_map.mpr fun i _ => ?_, List.forall_mem_singleton.mpr ?_⟩
  · apply Clause.bracketed_wire (by decide)
    split
    · exact .var (by decide)
    · exact Term.bracketed_wire (by decide) _
  · exact ⟨isName_outName d n, Term.bracketed_wire (by decide) _⟩

theorem isConstant_shiftLogic (d : Direction) (n : Nat) :
    (shiftLogic d n).any Clause.isConstant = false := by
  cases d <;> rfl

/-- The bits of a nibble move by one place, with one that comes in and one that leaves. -/
theorem holds_shiftLogic (d : Direction) (value : Assignment) (own : Bool) (n : Nat) :
    holds (Function.update value "cin" own) (shiftLogic d n) = true ↔
      (∀ i < 4, value (wireName "r" (4 * n + i : Nat)) =
        if i = d.enters then own else value (wireName "a" (4 * n + d.reads i : Nat))) ∧
      value (d.outName n) = value (wireName "a" (4 * n + d.leaves : Nat)) := by
  have result (i : Nat) := own_wire value own (by decide : Wordy "r") (by decide) i
  have operand (i : Nat) := own_wire value own (by decide : Wordy "a") (by decide) i
  have out : Function.update value "cin" own (d.outName n) = value (d.outName n) :=
    Formula.update_of_word (wordOf_outName d n) own
  rw [shiftLogic_eq, Formula.holds_append, Bool.and_eq_true, Formula.holds_map,
    Formula.holds_singleton, Formula.holds_define, out, Term.wire, Term.eval]
  simp only [List.mem_range]
  refine and_congr (forall₂_congr fun i _ => ?_) (iff_of_eq (congrArg _ (operand _)))
  rw [Formula.holds_wire, result]
  split
  · rw [Term.eval, own_carry]
  · rw [Term.wire, Term.eval]
    exact iff_of_eq (congrArg _ (operand _))

theorem cin_notMem_operands (n : Nat) : "cin" ∉ names "a" n ++ names "b" n := by
  intro member
  rcases List.mem_append.mp member with first | second
  · exact absurd (wordOf_names (by decide) first) (by decide)
  · exact absurd (wordOf_names (by decide) second) (by decide)

/-- A nibble moves its bits; where a zero is shifted in, the bit that comes in is that zero. -/
theorem holds_shiftNibble (d : Direction) (value : Assignment) (own : Bool) (n : Nat) :
    HoldsOpened (shiftInputs d n) (Function.update value "cin" own) (d.nibble n).constraints ↔
      (n = d.entry → own = false) ∧
        holds (Function.update value "cin" own) (shiftLogic d n) = true := by
  have logic := bracketed_shiftLogic d n
  have samples := supplies_operandSamples n
  have zero := Formula.supplies_fix (by decide : IsName "cin") false
  rw [constraints_shift, shiftInputs]
  split
  · next first =>
      rw [List.append_nil,
        samples.holdsOpened_append (List.forall_mem_append.mpr ⟨zero.bracketed, logic⟩),
        Formula.holdsBeside_append, Formula.holdsBeside_fix (cin_notMem_operands n), own_carry,
        Formula.holdsBeside_iff_holds (isConstant_shiftLogic d n)]
      exact and_congr ⟨fun given _ => given, fun given => given first⟩ Iff.rfl
  · next other =>
      rw [← List.append_assoc, (samples.append zero).holdsOpened_append logic,
        Formula.holdsBeside_iff_holds (isConstant_shiftLogic d n)]
      exact (and_iff_right fun first => absurd first other).symm

theorem holds_shiftLink (d : Direction) (value : Assignment) (own : Bool) {n : Nat}
    (inside : n < 7) :
    HoldsOpened handedBits (Function.update value "cin" own) (d.link n).constraints ↔
      own = value (wireName "cout" n) := by
  have named : ∀ name ∈ handedBits, IsName name :=
    List.forall_mem_map.mpr fun i _ => (by decide : IsName "cout").wire i
  have given : wireName "cout" n ∈ handedBits :=
    List.mem_map.mpr ⟨n, List.mem_range.mpr (by omega), rfl⟩
  have linked (title : String) : HoldsOpened handedBits (Function.update value "cin" own)
      (link title "cin" (wireName "cout" n)).constraints ↔ own = value (wireName "cout" n) := by
    rw [holds_link named (by decide) given, own_carry, own_wire value own (by decide) (by decide)]
  cases d with
  | up => exact linked _
  | down => exact linked _

/-! ## All nibbles -/

section Meaning
variable {d : Direction} {a : BitVec 32} {value : Assignment} {own : Nat → Bool}

theorem getLsbD_operand (operand : row value "a" 32 = a) {i : Nat} (inside : i < 32) :
    value (wireName "a" i) = a.getLsbD i := by
  rw [← operand, Formula.getLsbD_row value "a" inside]

theorem ShiftsEach.entry_eq (shifts : ShiftsEach d a value own) : own d.entry = false := by
  have inside : d.entry < 8 := by cases d <;> decide
  exact ((holds_shiftNibble d value _ _).mp (shifts.nibbles d.entry inside)).1 rfl

theorem ShiftsEach.bit_eq (shifts : ShiftsEach d a value own) {n i : Nat} (inside : n < 8)
    (small : i < 4) :
    (row value "r" 32).getLsbD (4 * n + i) =
      if i = d.enters then own n else a.getLsbD (4 * n + d.reads i) := by
  have logic := ((holds_shiftNibble d value _ _).mp (shifts.nibbles n inside)).2
  rw [Formula.getLsbD_row value "r" (by omega), ((holds_shiftLogic d value _ n).mp logic).1 i small]
  split
  · rfl
  · next other =>
      refine getLsbD_operand shifts.operand ?_
      cases d <;> simp only [Direction.enters, Direction.reads] at other ⊢ <;> omega

theorem ShiftsEach.entered (shifts : ShiftsEach d a value own) {n : Nat} (inside : n < 8) :
    (row value "r" 32).getLsbD (4 * n + d.enters) = own n := by
  have small : d.enters < 4 := by cases d <;> decide
  rw [shifts.bit_eq inside small, if_pos rfl]

theorem ShiftsEach.moved (shifts : ShiftsEach d a value own) {n i : Nat} (inside : n < 8)
    (small : i < 4) (other : i ≠ d.enters) :
    (row value "r" 32).getLsbD (4 * n + i) = a.getLsbD (4 * n + d.reads i) := by
  rw [shifts.bit_eq inside small, if_neg other]

theorem ShiftsEach.out_eq (shifts : ShiftsEach d a value own) {n : Nat} (inside : n < 8)
    (handsOn : d.handsOn n = true) : value (wireName "cout" n) = a.getLsbD (4 * n + d.leaves) := by
  have logic := ((holds_shiftNibble d value _ _).mp (shifts.nibbles n inside)).2
  have out := ((holds_shiftLogic d value _ n).mp logic).2
  rw [Direction.outName, if_pos handsOn] at out
  rw [out]
  refine getLsbD_operand shifts.operand ?_
  cases d <;> simp only [Direction.leaves] <;> omega

theorem Shifts.link_eq (shifts : Shifts d a value own) {n : Nat} (inside : n < 7) :
    own (d.target n) = value (wireName "cout" n) :=
  (holds_shiftLink d value _ inside).mp (shifts.links n inside)

end Meaning

theorem Shifts.row_up {a : BitVec 32} {value : Assignment} {own : Nat → Bool}
    (shifts : Shifts .up a value own) :
    row value "r" 32 = a <<< 1 := by
  refine eq_of_nibbles fun n inside i small => ?_
  rw [BitVec.getLsbD_shiftLeft, decide_eq_true (by omega), Bool.true_and]
  cases i with
  | succ i =>
      rw [decide_eq_false (by omega), shifts.moved inside small (Nat.succ_ne_zero i)]
      rfl
  | zero =>
      refine (shifts.entered inside).trans ?_
      cases n with
      | zero => exact shifts.entry_eq
      | succ n =>
          -- what comes in is what left the nibble below, the bit before
          have handed : own (n + 1) = value (wireName "cout" n) := shifts.link_eq (by omega)
          rw [handed, shifts.out_eq (by omega) (decide_eq_true (by omega : n < 7)),
            decide_eq_false (by omega)]
          rfl

section Down
variable {a : BitVec 32} {value : Assignment} {own : Nat → Bool}

/-- With links from above the nibbles shift down by one place. -/
theorem ShiftsEach.row_down (shifts : ShiftsEach .down a value own)
    (linked : LinkedFromAbove value own) :
    row value "r" 32 = a >>> 1 := by
  refine eq_of_nibbles fun n inside i small => ?_
  have next : 1 + (4 * n + i) = 4 * n + (i + 1) := by omega
  rw [BitVec.getLsbD_ushiftRight, next]
  by_cases top : i = 3
  · subst top
    refine (shifts.entered inside).trans ?_
    by_cases last : n = 7
    · subst last
      rw [BitVec.getLsbD_of_ge a _ (by decide)]
      exact shifts.entry_eq
    · rw [linked n (by omega), shifts.out_eq (by omega) (decide_eq_true (Nat.succ_pos n))]
      rfl
  · exact shifts.moved inside small top

/-- The bit that the links as they are give to a place.  They give none to the top place of the
lowest nibble. -/
def downBit (a : BitVec 32) (i : Nat) : Bool :=
  if i % 4 = 3 then i != 31 && a.getLsbD (i - 3) else a.getLsbD (i + 1)

theorem downBit_top (a : BitVec 32) (n : Nat) :
    downBit a (4 * n + 3) = (n != 7 && a.getLsbD (4 * n)) := by
  have same : (4 * n + 3 != 31) = (n != 7) := by
    rw [Bool.eq_iff_iff, bne_iff_ne, bne_iff_ne]
    omega
  rw [downBit, if_pos (by omega), same]
  rfl

theorem downBit_other (a : BitVec 32) {n i : Nat} (small : i < 4) (other : i ≠ 3) :
    downBit a (4 * n + i) = a.getLsbD (4 * n + (i + 1)) := by
  rw [downBit, if_neg (by omega)]
  rfl

theorem Shifts.down_bit (shifts : Shifts .down a value own) {n i : Nat} (inside : n < 8)
    (small : i < 4) (given : 4 * n + i ≠ 3) :
    (row value "r" 32).getLsbD (4 * n + i) = downBit a (4 * n + i) := by
  by_cases top : i = 3
  · subst top
    rw [downBit_top]
    refine (shifts.entered inside).trans ?_
    by_cases last : n = 7
    · subst last
      exact shifts.entry_eq
    · -- the link reads the nibble that it leads to
      have handed : own n = value (wireName "cout" n) := shifts.link_eq (by omega)
      rw [handed, shifts.out_eq inside (decide_eq_true (by omega : 0 < n)), bne_iff_ne.mpr last,
        Bool.true_and]
      rfl
  · rw [downBit_other a small top]
    exact shifts.moved inside small top

end Down

/-! ## Assignments of shifts -/

def shiftRows (a r : BitVec 32) (out : Nat → Bool) (word : String) (number : Nat) : Bool :=
  if word = "a" then a.getLsbD number
  else if word = "r" then r.getLsbD number
  else if word = "cout" then out number
  else if word = "overflow" then a.getLsbD 31
  else a.getLsbD 0

/-- What comes into the nibbles, from the word that they result in. -/
def incomingBits (d : Direction) (r : BitVec 32) (n : Nat) : Bool :=
  r.getLsbD (4 * n + d.enters)

section Rows
variable (a r : BitVec 32) (out : Nat → Bool)

theorem shiftRows_operand (i : Nat) : ofRows (shiftRows a r out) (wireName "a" i) = a.getLsbD i :=
  Formula.ofRows_wireName (by decide) i _

theorem shiftRows_result (i : Nat) : ofRows (shiftRows a r out) (wireName "r" i) = r.getLsbD i :=
  Formula.ofRows_wireName (by decide) i _

theorem shiftRows_out (n : Nat) : ofRows (shiftRows a r out) (wireName "cout" n) = out n :=
  Formula.ofRows_wireName (by decide) n _

theorem shiftRows_lost (d : Direction) {n : Nat} (inside : n < 8) (last : d.handsOn n = false) :
    ofRows (shiftRows a r out) d.lost = a.getLsbD (4 * n + d.leaves) := by
  cases d with
  | up =>
      have highest : n = 7 := by
        have := of_decide_eq_false last
        omega
      subst highest
      rfl
  | down =>
      have lowest : n = 0 := by
        have := of_decide_eq_false last
        omega
      subst lowest
      rfl

end Rows

theorem shiftsEach_shiftRows {d : Direction} {a r : BitVec 32} {out : Nat → Bool}
    (zero : incomingBits d r d.entry = false)
    (moved : ∀ n < 8, ∀ i < 4, i ≠ d.enters → r.getLsbD (4 * n + i) = a.getLsbD (4 * n + d.reads i))
    (outs : ∀ n < 8, d.handsOn n = true → out n = a.getLsbD (4 * n + d.leaves)) :
    ShiftsEach d a (ofRows (shiftRows a r out)) (incomingBits d r) := by
  refine ⟨row_ofRows (shiftRows_operand a r out),
    fun n inside => (holds_shiftNibble d _ _ n).mpr ⟨?_, ?_⟩⟩
  · rintro rfl
    exact zero
  · refine (holds_shiftLogic d _ _ n).mpr ⟨fun i small => ?_, ?_⟩
    · rw [shiftRows_result, shiftRows_operand]
      split
      · next top => rw [incomingBits, top]
      · next other => exact moved n inside i small other
    · rw [shiftRows_operand, Direction.outName]
      split
      · next handsOn => rw [shiftRows_out, outs n inside handsOn]
      · next last => exact shiftRows_lost a r out d inside (Bool.eq_false_iff.mpr last)

theorem shifts_shiftRows {d : Direction} {a r : BitVec 32} {out : Nat → Bool}
    (each : ShiftsEach d a (ofRows (shiftRows a r out)) (incomingBits d r))
    (links : ∀ n < 7, incomingBits d r (d.target n) = out n) :
    Shifts d a (ofRows (shiftRows a r out)) (incomingBits d r) where
  toShiftsEach := each
  links n inside := by
    rw [holds_shiftLink d _ _ inside, shiftRows_out]
    exact links n inside

theorem shifts_up (a : BitVec 32) :
    Shifts .up a (ofRows (shiftRows a (a <<< 1) fun n => a.getLsbD (4 * n + 3)))
      (incomingBits .up (a <<< 1)) := by
  have bit {i : Nat} (inside : i + 1 < 32) : (a <<< 1).getLsbD (i + 1) = a.getLsbD i := by
    rw [BitVec.getLsbD_shiftLeft, decide_eq_true inside, decide_eq_false (by omega)]
    rfl
  refine shifts_shiftRows
    (shiftsEach_shiftRows ?_ (fun n inside i small other => ?_) fun _ _ _ => rfl) ?_
  · rw [incomingBits, BitVec.getLsbD_shiftLeft]
    rfl
  · cases i with
    | zero => exact absurd rfl other
    | succ i => exact bit (by omega : 4 * n + i + 1 < 32)
  · exact fun n inside => bit (by omega : 4 * n + 3 + 1 < 32)

/-- Every word with the bits that are given can result. -/
theorem shifts_down {a r : BitVec 32} (given : ∀ i < 32, i ≠ 3 → r.getLsbD i = downBit a i) :
    Shifts .down a
      (ofRows (shiftRows a r fun n => if n = 0 then r.getLsbD 3 else a.getLsbD (4 * n)))
      (incomingBits .down r) := by
  refine shifts_shiftRows
    (shiftsEach_shiftRows ?_ (fun n inside i small other => ?_) fun n _ handsOn => ?_) ?_
  · exact given 31 (by decide) (by decide)
  · have below : i ≠ 3 := other
    exact (given (4 * n + i) (by omega) (by omega)).trans (downBit_other a small below)
  · exact if_neg (Nat.ne_of_gt (of_decide_eq_true handsOn))
  · intro n inside
    show r.getLsbD (4 * n + 3) = _
    split
    · next lowest => rw [lowest]
    · next higher =>
        rw [given (4 * n + 3) (by omega) (by omega), downBit_top, bne_iff_ne.mpr (by omega),
          Bool.true_and]

theorem shiftsEach_down (a : BitVec 32) :
    ShiftsEach .down a (ofRows (shiftRows a (a >>> 1) fun n => a.getLsbD (4 * n)))
      (incomingBits .down (a >>> 1)) := by
  refine shiftsEach_shiftRows ?_ (fun n inside i small other => ?_) fun _ _ _ => rfl
  · rw [incomingBits, BitVec.getLsbD_ushiftRight]
    exact BitVec.getLsbD_of_ge a _ (by decide)
  · rw [BitVec.getLsbD_ushiftRight, Nat.add_comm]
    rfl

theorem linkedFromAbove_down (a : BitVec 32) :
    LinkedFromAbove (ofRows (shiftRows a (a >>> 1) fun n => a.getLsbD (4 * n)))
      (incomingBits .down (a >>> 1)) := by
  intro n inside
  rw [shiftRows_out, incomingBits, BitVec.getLsbD_ushiftRight, Nat.add_comm]
  rfl

/-- What the components of the two shifts compute.  Upwards they can be satisfied and always shift
by one place. Downwards the results are all words that have, in each place but the fourth, the bit
of the next place or, at the top of a nibble, the bit of the lowest place of that same nibble, and
zero in the last place; the fourth place is open. With links that read the nibble they come from,
they can be satisfied and always shift by one place. -/
theorem shifts_by_one (a : BitVec 32) :
    (∀ d : Direction, ofInstruction d.instruction =
      (List.range 8).map (fun n : Nat => d.nibble n) ++ (List.range 7).map d.link) ∧
    (∃ value own, Shifts .up a value own) ∧
    (∀ value own, Shifts .up a value own → row value "r" 32 = a <<< 1) ∧
    (∀ r : BitVec 32, (∃ value own, Shifts .down a value own ∧ row value "r" 32 = r) ↔
      ∀ i < 32, i ≠ 3 → r.getLsbD i =
        if i % 4 = 3 then i != 31 && a.getLsbD (i - 3) else a.getLsbD (i + 1)) ∧
    (∃ value own, ShiftsEach .down a value own ∧ LinkedFromAbove value own) ∧
    ∀ value own, ShiftsEach .down a value own → LinkedFromAbove value own →
    row value "r" 32 = a >>> 1 := by
  refine ⟨ofInstruction_shift, ⟨_, _, shifts_up a⟩, fun value own shifts => shifts.row_up,
    fun r => ⟨?_, ?_⟩, ⟨_, _, shiftsEach_down a, linkedFromAbove_down a⟩,
    fun value own shifts linked => shifts.row_down linked⟩
  · rintro ⟨value, own, shifts, rfl⟩ i inside open'
    have place : 4 * (i / 4) + i % 4 = i := by omega
    have bit := shifts.down_bit (by omega : i / 4 < 8) (by omega : i % 4 < 4) (by omega)
    rwa [place] at bit
  · exact fun given => ⟨_, _, shifts_down given, row_ofRows (shiftRows_result _ _ _)⟩

/-- A word whose only bit is the lowest of the third nibble can be shifted down, but never by one
place. -/
theorem third_nibble_misplaced :
    (∃ value own, Shifts .down 256 value own) ∧
    ∀ value own, Shifts .down 256 value own → row value "r" 32 ≠ 256 >>> 1 := by
  have given : ∀ i < 32, i ≠ 3 → (2048 : BitVec 32).getLsbD i = downBit 256 i := by decide
  refine ⟨⟨_, _, shifts_down given⟩, fun value own shifts right => ?_⟩
  have bit := shifts.down_bit (by decide : 1 < 8) (by decide : 3 < 4) (by decide)
  rw [right] at bit
  exact absurd bit (by decide)

end Zkvm.Component
