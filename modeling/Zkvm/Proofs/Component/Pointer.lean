import Zkvm.Component.System
import Zkvm.Proofs.Component.StackNibble

/-!
# The stack pointer

A push adds one to the pointer and a pop takes one away, nibble by nibble, with a carry or a borrow
that goes on from each nibble to the next.  Only the lowest nibble says what leaves it.  So the two
lowest nibbles are right, and every other nibble may be stepped or left as it is; if all nibbles
said what leaves them, the pointer would be stepped by one.
-/
set_option autoImplicit false

namespace Zkvm.Component

open Formula (IsName Wordy ofRows wireName row HoldsOpened)
open Contract.Instruction (nibbleOf getLsbD_nibbleOf)

def within (locals : List String) (inner outer : Assignment) : Assignment :=
  fun name => if name ∈ locals then inner name else outer name

theorem ofInstruction_move (move : StackMove) :
    ofInstruction move.instruction =
      (List.range 8).map (fun n : Nat => move.nibble n) ++ (List.range 7).map move.link := by
  cases move <;> rfl

/-- The assignment satisfies the nibbles of a push or a pop with this pointer and the links between
them, where the names of its own are read by every nibble in another assignment. -/
structure Steps (move : StackMove) (sp : BitVec 32) (value : Assignment)
    (inner : Nat → Assignment) : Prop where
  pointer : row value "sp" 32 = sp
  nibbles : ∀ n < (8 : Nat),
    HoldsOpened (move.inputs n) (within move.locals (inner n) value) (move.nibble n).constraints
  links : ∀ n < (7 : Nat),
    HoldsOpened [wireName move.outgoing n] (within move.locals (inner (n + 1)) value)
      (move.link n).constraints

/-! ## All nibbles -/

theorem within_of_word {locals : List String} {inner outer : Assignment} {name : String}
    (apart : ∀ own ∈ locals, Formula.wordOf own ≠ Formula.wordOf name) :
    within locals inner outer name = outer name :=
  if_neg fun member => apart name member rfl

/-- The names of a row that no nibble has as its own are read in the common assignment. -/
theorem within_wire {locals : List String} {word : String} (wordy : Wordy word)
    (apart : ∀ own ∈ locals, Formula.wordOf own ≠ word) (inner outer : Assignment) (i : Nat) :
    within locals inner outer (wireName word i) = outer (wireName word i) :=
  within_of_word (by rwa [Formula.wordOf_wireName wordy])

theorem within_incoming (move : StackMove) (inner outer : Assignment) :
    within move.locals inner outer move.incoming = inner move.incoming := by
  cases move with
  | push => exact if_pos (by decide)
  | pop => exact if_pos (by decide)

section Shared
variable (move : StackMove) (inner value : Assignment)

theorem within_pointer (n : Nat) :
    pointerBits (within move.locals inner value) n = pointerBits value n := by
  funext i
  exact within_wire (by decide) (by cases move <;> decide) inner value _

theorem within_result (i : Nat) :
    within move.locals inner value (wireName move.result i) = value (wireName move.result i) := by
  cases move with
  | push => exact within_wire (by decide) (by decide) inner value i
  | pop => exact within_wire (by decide) (by decide) inner value i

theorem within_outgoing (n : Nat) :
    within move.locals inner value (wireName move.outgoing n) =
      value (wireName move.outgoing n) := by
  cases move with
  | push => exact within_wire (by decide) (by decide) inner value n
  | pop => exact within_wire (by decide) (by decide) inner value n

end Shared

def comes (move : StackMove) (inner : Nat → Assignment) (n : Nat) : Bool :=
  if n = 0 then true else inner n move.incoming

theorem firstIn_within (move : StackMove) (inner : Nat → Assignment) (value : Assignment)
    (n : Nat) :
    firstIn move (within move.locals (inner n) value) n = comes move inner n := by
  rw [firstIn, comes, within_incoming]

theorem isName_outgoing (move : StackMove) : IsName move.outgoing := by
  cases move <;> decide

theorem holds_stackLink (move : StackMove) (inner value : Assignment) (n : Nat) :
    HoldsOpened [wireName move.outgoing n] (within move.locals inner value)
      (move.link n).constraints ↔
      inner move.incoming = value (wireName move.outgoing n) := by
  have out : IsName (wireName move.outgoing n) := (isName_outgoing move).wire n
  have linked (title : String) :
      HoldsOpened [wireName move.outgoing n] (within move.locals inner value)
        (link title move.incoming (wireName move.outgoing n)).constraints ↔
          inner move.incoming = value (wireName move.outgoing n) := by
    rw [holds_link (List.forall_mem_singleton.mpr out) (isName_incoming move)
      (List.mem_singleton_self _),
      within_incoming, within_outgoing]
  cases move with
  | push => exact linked _
  | pop => exact linked _

/-- Every nibble but the highest says what leaves it. -/
def AllHandOn (move : StackMove) (sp : BitVec 32) (value : Assignment)
    (inner : Nat → Assignment) : Prop :=
  ∀ n < (7 : Nat), value (wireName move.outgoing n) =
    passed move.falling (fun i => sp.getLsbD (4 * n + i)) (comes move inner n) 4

section Meaning
variable {move : StackMove} {sp : BitVec 32} {value : Assignment} {inner : Nat → Assignment}

theorem passed_pointer (pointer : row value "sp" 32 = sp) (falling first : Bool) {n i : Nat}
    (inside : n < 8) (small : i ≤ 4) :
    passed falling (pointerBits value n) first i =
      passed falling (fun j => sp.getLsbD (4 * n + j)) first i := by
  refine passed_congr fun j below => ?_
  rw [← pointer, Formula.getLsbD_row value "sp" (by omega), pointerBits]

theorem Steps.nibble_eq (steps : Steps move sp value inner) {n : Nat} (inside : n < 8) :
    nibbleOf (row value move.result 32) n = stepIf move (comes move inner n) (nibbleOf sp n) := by
  have bits := ((holds_stackNibble move _ n).mp (steps.nibbles n inside)).1
  refine BitVec.eq_of_getLsbD_eq fun i small => ?_
  have bit := bits i small
  rw [within_result, within_pointer, firstIn_within,
    passed_pointer steps.pointer _ _ inside (by omega)] at bit
  rw [getLsbD_nibbleOf _ n small, Formula.getLsbD_row value move.result (by omega), bit,
    getLsbD_stepIf move _ _ small, passed_nibbleOf _ _ sp n (by omega), getLsbD_nibbleOf sp n small,
    ← steps.pointer, Formula.getLsbD_row value "sp" (by omega), pointerBits]

theorem Steps.link_eq (steps : Steps move sp value inner) {n : Nat} (inside : n < 7) :
    comes move inner (n + 1) = value (wireName move.outgoing n) := by
  rw [comes, if_neg (Nat.succ_ne_zero n)]
  exact (holds_stackLink move _ value n).mp (steps.links n inside)

theorem Steps.second_eq (steps : Steps move sp value inner) :
    comes move inner 1 = comesInto move sp 1 := by
  have out := ((holds_stackNibble move _ 0).mp (steps.nibbles 0 (by decide))).2.1 rfl
  have shared := within_outgoing move (inner 0) value 0
  rw [within_pointer, passed_pointer steps.pointer _ _ (by decide) (by decide)] at out
  rw [steps.link_eq (by decide : 0 < 7), comesInto_succ]
  exact shared.symm.trans out

/-- If all nibbles say what leaves them, the pointer is stepped by one. -/
theorem Steps.row_eq (steps : Steps move sp value inner) (handOn : AllHandOn move sp value inner) :
    row value move.result 32 = move.step sp := by
  have right : ∀ n < 8, comes move inner n = comesInto move sp n := by
    intro n
    induction n with
    | zero => exact fun _ => (comesInto_zero move sp).symm
    | succ n ih =>
        intro inside
        rw [steps.link_eq (by omega), handOn n (by omega), ih (by omega), comesInto_succ]
  refine eq_of_nibbleOf fun n inside => ?_
  rw [steps.nibble_eq inside, right n inside, nibbleOf_step move sp inside]

end Meaning

/-! ## Assignments of a move -/

/-- The bits of the word whose nibbles are stepped where something comes in. -/
def steppedBits (move : StackMove) (sp : BitVec 32) (into : Nat → Bool) (place : Nat) : Bool :=
  (stepIf move (into (place / 4)) (nibbleOf sp (place / 4))).getLsbD (place % 4)

def moveRows (move : StackMove) (sp : BitVec 32) (into : Nat → Bool) (word : String)
    (number : Nat) : Bool :=
  if word = "sp" then sp.getLsbD number
  else if word = move.result then steppedBits move sp into number
  else if word = move.outgoing then into (number + 1)
  else word == "stack_op"

def ownRows (sp : BitVec 32) (into : Nat → Bool) (n : Nat) (word : String) (number : Nat) : Bool :=
  if word = "borrow" then passed true (fun i => sp.getLsbD (4 * n + i)) (into n) (number + 1)
  else into n

section Rows
variable (move : StackMove) (sp : BitVec 32) (into : Nat → Bool)

theorem moveRows_pointer (i : Nat) :
    ofRows (moveRows move sp into) (wireName "sp" i) = sp.getLsbD i :=
  Formula.ofRows_wireName (by decide) i _

theorem moveRows_result (i : Nat) :
    ofRows (moveRows move sp into) (wireName move.result i) = steppedBits move sp into i := by
  cases move with
  | push => exact Formula.ofRows_wireName (by decide) i _
  | pop => exact Formula.ofRows_wireName (by decide) i _

theorem moveRows_outgoing (n : Nat) :
    ofRows (moveRows move sp into) (wireName move.outgoing n) = into (n + 1) := by
  cases move with
  | push => exact Formula.ofRows_wireName (by decide) n _
  | pop => exact Formula.ofRows_wireName (by decide) n _

theorem moveRows_flag : ofRows (moveRows move sp into) "stack_op" = true := by
  cases move <;> rfl

theorem moveRows_data (i : Nat) : ofRows (moveRows .pop sp into) (wireName "pop_data" i) = false :=
  Formula.ofRows_wireName (by decide) i _

theorem ownRows_incoming (n : Nat) : ofRows (ownRows sp into n) move.incoming = into n := by
  cases move <;> rfl

theorem ownRows_borrow (n i : Nat) : ofRows (ownRows sp into n) (wireName "borrow" i) =
    passed true (fun j => sp.getLsbD (4 * n + j)) (into n) (i + 1) :=
  Formula.ofRows_wireName (by decide) i _

theorem getLsbD_steppedBits {n i : Nat} (small : i < 4) :
    steppedBits move sp into (4 * n + i) = (stepIf move (into n) (nibbleOf sp n)).getLsbD i := by
  have nibble : (4 * n + i) / 4 = n := by omega
  have place : (4 * n + i) % 4 = i := by omega
  rw [steppedBits, nibble, place]

variable {into} (first : into 0 = true)
include first

theorem comes_ownRows (n : Nat) : comes move (fun n => ofRows (ownRows sp into n)) n = into n := by
  rw [comes]
  split
  · next lowest => rw [lowest, first]
  · exact ownRows_incoming move sp into n

theorem beside_moveRows {n : Nat} (inside : n < 8) :
    Beside move (within move.locals (ofRows (ownRows sp into n)) (ofRows (moveRows move sp into)))
      n := by
  have pointer : row (ofRows (moveRows move sp into)) "sp" 32 = sp :=
    row_ofRows (moveRows_pointer move sp into)
  have flag :
      within move.locals (ofRows (ownRows sp into n)) (ofRows (moveRows move sp into)) "stack_op" =
        true := by
    rw [within_of_word (by cases move <;> decide), moveRows_flag]
  cases move with
  | push => exact flag
  | pop =>
      refine ⟨flag, fun i _ => ?_, fun i small _ => ?_⟩
      · rw [within_wire (by decide) (by decide), moveRows_data]
      · have own :
            within StackMove.pop.locals (ofRows (ownRows sp into n))
              (ofRows (moveRows .pop sp into)) (wireName "borrow" i) =
                ofRows (ownRows sp into n) (wireName "borrow" i) := by
          refine if_pos ?_
          interval_cases i <;> decide
        have comes :=
          firstIn_within .pop (fun n => ofRows (ownRows sp into n))
            (ofRows (moveRows .pop sp into)) n
        rw [own, ownRows_borrow, within_pointer,
          passed_pointer pointer _ _ inside (by omega), comes, comes_ownRows .pop sp first]

/-- Whatever comes into the nibbles above the second, the nibbles and their links can be
satisfied. -/
theorem steps_moveRows (second : into 1 = comesInto move sp 1) :
    Steps move sp (ofRows (moveRows move sp into)) fun n => ofRows (ownRows sp into n) := by
  have pointer : row (ofRows (moveRows move sp into)) "sp" 32 = sp :=
    row_ofRows (moveRows_pointer move sp into)
  refine ⟨pointer, fun n inside => (holds_stackNibble move _ n).mpr ⟨fun i small => ?_, ?_, ?_⟩,
    fun n inside => ?_⟩
  · have comes :=
      firstIn_within move (fun n => ofRows (ownRows sp into n)) (ofRows (moveRows move sp into)) n
    rw [within_result, moveRows_result, getLsbD_steppedBits move sp into small,
      getLsbD_stepIf move _ _ small, within_pointer, comes, comes_ownRows move sp first,
      passed_pointer pointer _ _ inside (by omega), passed_nibbleOf _ _ sp n (by omega),
      getLsbD_nibbleOf sp n small, pointerBits, moveRows_pointer]
  · rintro rfl
    have handed :=
      (within_outgoing move (ofRows (ownRows sp into 0)) (ofRows (moveRows move sp into)) 0).trans
        (moveRows_outgoing move sp into 0)
    rw [within_pointer, passed_pointer pointer _ _ (by decide) (by decide)]
    exact handed.trans (second.trans (comesInto_succ move sp 0))
  · exact beside_moveRows move sp first inside
  · rw [holds_stackLink, moveRows_outgoing, ownRows_incoming]

theorem nibbleOf_moveRows (second : into 1 = comesInto move sp 1) {n : Nat} (inside : n < 8) :
    nibbleOf (row (ofRows (moveRows move sp into)) move.result 32) n =
      stepIf move (into n) (nibbleOf sp n) := by
  rw [(steps_moveRows move sp first second).nibble_eq inside, comes_ownRows move sp first]

end Rows

section Results
variable (move : StackMove) (sp : BitVec 32)

/-- A nibble that is one or the other is stepped for some value of what comes in. -/
theorem exists_stepIf {x : BitVec 32} {n : Nat}
    (either : nibbleOf x n = nibbleOf sp n ∨ nibbleOf x n = move.step (nibbleOf sp n)) :
    nibbleOf x n = stepIf move (nibbleOf x n != nibbleOf sp n) (nibbleOf sp n) := by
  by_cases same : nibbleOf x n = nibbleOf sp n
  · rw [same, bne_self_eq_false]
    rfl
  · rw [bne_iff_ne.mpr same]
    exact either.resolve_left same

theorem exists_steps_iff (x : BitVec 32) :
    (∃ value inner, Steps move sp value inner ∧ row value move.result 32 = x) ↔
      (∀ n < 2, nibbleOf x n = nibbleOf (move.step sp) n) ∧
      ∀ n < 8, 2 ≤ n → nibbleOf x n = nibbleOf sp n ∨ nibbleOf x n = move.step (nibbleOf sp n) := by
  constructor
  · rintro ⟨value, inner, steps, rfl⟩
    refine ⟨fun n low => ?_, fun n inside _ => ?_⟩
    · have right : comes move inner n = comesInto move sp n := by
        interval_cases n
        · exact (comesInto_zero move sp).symm
        · exact steps.second_eq
      rw [steps.nibble_eq (by omega), right, nibbleOf_step move sp (by omega)]
    · rw [steps.nibble_eq inside, stepIf]
      split
      · exact Or.inr rfl
      · exact Or.inl rfl
  · rintro ⟨low, high⟩
    -- above the second nibble whatever the word needs may come in
    let into (n : Nat) : Bool :=
      if n < 2 then comesInto move sp n else nibbleOf x n != nibbleOf sp n
    have first : into 0 = true := comesInto_zero move sp
    have second : into 1 = comesInto move sp 1 := rfl
    refine ⟨_, _, steps_moveRows move sp first second, eq_of_nibbleOf fun n inside => ?_⟩
    rw [nibbleOf_moveRows move sp first second inside]
    by_cases lower : n < 2
    · rw [low n lower, nibbleOf_step move sp inside]
      exact congrArg (fun comes => stepIf move comes _) (if_pos lower)
    · rw [exists_stepIf move sp (high n inside (by omega))]
      exact congrArg (fun comes => stepIf move comes _) (if_neg lower)

theorem exists_steps_wrong :
    ∃ value inner, Steps move sp value inner ∧ row value move.result 32 ≠ move.step sp := by
  let into (n : Nat) : Bool := if n < 2 then comesInto move sp n else !comesInto move sp n
  have first : into 0 = true := comesInto_zero move sp
  have second : into 1 = comesInto move sp 1 := rfl
  refine ⟨_, _, steps_moveRows move sp first second, fun right => ?_⟩
  have third := nibbleOf_moveRows move sp first second (by decide : 2 < 8)
  rw [right, nibbleOf_step move sp (by decide)] at third
  exact stepIf_ne move _ _ third.symm

theorem exists_steps_handOn :
    ∃ value inner, Steps move sp value inner ∧ AllHandOn move sp value inner := by
  have first := comesInto_zero move sp
  refine ⟨_, _, steps_moveRows move sp first rfl, fun n _ => ?_⟩
  rw [moveRows_outgoing, comes_ownRows move sp first, comesInto_succ]

end Results

/-- What the components of a push and of a pop make of the pointer.  The results are all words whose
two lowest nibbles are those of the pointer stepped by one and whose other nibbles are, each for
itself, those of the pointer or these stepped by one; so for every pointer some result is wrong.  If
all nibbles said what leaves them, the components could be satisfied as well, and would step the
pointer by one. -/
theorem stack_pointer_steps (move : StackMove) (sp : BitVec 32) :
    ofInstruction move.instruction =
      (List.range 8).map (fun n : Nat => move.nibble n) ++ (List.range 7).map move.link ∧
    (∀ x : BitVec 32, (∃ value inner, Steps move sp value inner ∧ row value move.result 32 = x) ↔
      (∀ n < 2, nibbleOf x n = nibbleOf (move.step sp) n) ∧
      ∀ n < 8, 2 ≤ n → nibbleOf x n = nibbleOf sp n ∨ nibbleOf x n = move.step (nibbleOf sp n)) ∧
    (∃ value inner, Steps move sp value inner ∧ row value move.result 32 ≠ move.step sp) ∧
    (∃ value inner, Steps move sp value inner ∧ AllHandOn move sp value inner) ∧
    ∀ value inner, Steps move sp value inner → AllHandOn move sp value inner →
      row value move.result 32 = move.step sp :=
  ⟨ofInstruction_move move, exists_steps_iff move sp, exists_steps_wrong move sp,
    exists_steps_handOn move sp, fun _ _ steps => steps.row_eq⟩

/-- A push may take the pointer from zero to 257, and a pop may take it from one to 3840. -/
theorem pointer_step_loose :
    (∃ value inner, Steps .push 0 value inner ∧ row value "sp_inc" 32 = 257 ∧
      (257 : BitVec 32) ≠ 0 + 1) ∧
    ∃ value inner, Steps .pop 1 value inner ∧ row value "sp_dec" 32 = 3840 ∧
      (3840 : BitVec 32) ≠ 1 - 1 := by
  obtain ⟨value, inner, pushes, pushed⟩ := (exists_steps_iff .push 0 257).mpr (by decide)
  obtain ⟨other, own, pops, popped⟩ := (exists_steps_iff .pop 1 3840).mpr (by decide)
  exact ⟨⟨value, inner, pushes, pushed, by decide⟩, other, own, pops, popped, by decide⟩

end Zkvm.Component
