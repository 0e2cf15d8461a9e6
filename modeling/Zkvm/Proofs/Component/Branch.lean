import Zkvm.Proofs.Component.Advance

/-!
# Conditional jumps

A conditional jump goes to its target where the flag has the value that takes it, whatever the
counter is.  Where it is not taken, the new counter is the counter plus four except in the lowest
bit of every nibble but the lowest: that bit is read at its place within the nibble, and so is the
lowest bit of the sum.
-/
set_option autoImplicit false

namespace Zkvm.Component

open Formula (IsName Wordy holds ofRows wireName row HoldsOpened Supplies)

def branchInputs (n : Nat) : List String :=
  ["zflag"] ++ names "target" n ++ names "pc" n ++ ["cin"]

/-- A nibble of the jump that is taken if the flag has the value `taken`. -/
def conditional (taken : Bool) (n : Int) : Component :=
  if taken then jzNibble n else jnzNibble n

/-- The assignment satisfies the nibbles of a conditional jump and the links of their carries, with
these inputs; the name `cin` is read by every nibble as its own. -/
structure Branches (taken flag : Bool) (pc target : BitVec 32) (value : Assignment)
    (own : Nat → Bool) : Prop where
  counter : row value "pc" 32 = pc
  aim : row value "target" 32 = target
  flag : value "zflag" = flag
  nibbles : ∀ n < (8 : Nat),
    HoldsOpened (branchInputs n) (Function.update value "cin" (own n))
      (conditional taken n).constraints
  links : ∀ n < (7 : Nat),
    HoldsOpened [wireName "cout" n] (Function.update value "cin" (own (n + 1)))
      (counterLink n (n + 1 : Nat)).constraints

/-! ## One nibble -/

def branchSamples (taken : Bool) (n : Nat) : List Clause :=
  [.fix "zflag" taken] ++ samples "target" n n ++ samples "pc" n (n + 1) ++ controlCarryIn n

theorem supplies_branchSamples (taken : Bool) (n : Nat) :
    Supplies (branchInputs n) (branchSamples taken n) := by
  have flagged := Formula.supplies_fix (by decide : IsName "zflag") taken
  have aimed := supplies_samples (by decide : IsName "target") n n
  have counted := supplies_samples (by decide : IsName "pc") n (n + 1)
  exact ((flagged.append aimed).append counted).append (supplies_controlCarryIn n)

def choice (taken : Bool) (n : Nat) : List Clause :=
  if taken then select flag flag.flipped n else select flag.flipped flag n

theorem bracketed_select {taken passed : Term} (first : taken.Bracketed) (second : passed.Bracketed)
    (n : Nat) :
    ∀ clause ∈ select taken passed n, clause.Bracketed := by
  refine List.forall_mem_map.mpr fun i _ =>
    ⟨isName_wireName (by decide) (by omega), .pair rfl (.pair rfl first ?_)
      (.pair rfl second ?_)⟩
  · exact bracketed_wire (by decide) (by omega)
  · apply bracketed_wire (by decide)
    split <;> omega

theorem bracketed_choice (taken : Bool) (n : Nat) :
    ∀ clause ∈ choice taken n, clause.Bracketed := by
  have named : flag.Bracketed := .var (by decide)
  rw [choice]
  split
  · exact bracketed_select named named.flipped n
  · exact bracketed_select named.flipped named n

theorem isConstant_choice (taken : Bool) (n : Nat) :
    (choice taken n).any Clause.isConstant = false := by
  cases taken <;> rfl

def readPlace (n i : Nat) : Nat :=
  if i = 0 then 0 else 4 * n + i

theorem holds_select (value : Assignment) (taken passed : Term) (n : Nat) :
    holds value (select taken passed n) = true ↔
      ∀ i < 4, value (wireName "newpc" (4 * n + i : Nat)) =
        ((taken.eval value && value (wireName "target" (4 * n + i : Nat))) ||
          (passed.eval value && value (wireName "s" (readPlace n i)))) := by
  rw [select, Formula.holds_map]
  simp only [List.mem_range]
  refine forall₂_congr fun i _ => ?_
  have place :
      (if 0 < i ∧ 0 < (n : Int) then (n : Int) * 4 + i else i) = (readPlace n i : Int) := by
    rw [readPlace]
    split <;> split <;> omega
  rw [place, place_eq, Formula.holds_wire]
  simp only [Term.eval_or, Term.eval_and, Term.wire, Term.eval, wireName]

theorem holds_choice (value : Assignment) (own taken : Bool) (n : Nat) :
    holds (Function.update value "cin" own) (choice taken n) = true ↔
      ∀ i < 4, value (wireName "newpc" (4 * n + i : Nat)) =
        if value "zflag" = taken then value (wireName "target" (4 * n + i : Nat))
        else value (wireName "s" (readPlace n i)) := by
  have shared : Function.update value "cin" own "zflag" = value "zflag" :=
    Function.update_of_ne (by decide) _ _
  have result (i : Nat) := own_wire value own (by decide : Wordy "newpc") (by decide) i
  have aim (i : Nat) := own_wire value own (by decide : Wordy "target") (by decide) i
  have sum (i : Nat) := own_wire value own (by decide : Wordy "s") (by decide) i
  cases taken with
  | true =>
      rw [choice, if_pos rfl, holds_select]
      simp only [Term.eval_flipped, flag, Term.eval, shared, result, aim, sum]
      cases value "zflag" <;> simp
  | false =>
      rw [choice, if_neg Bool.false_ne_true, holds_select]
      simp only [Term.eval_flipped, flag, Term.eval, shared, result, aim, sum]
      cases value "zflag" <;> simp

theorem constraints_conditional (taken : Bool) (n : Nat) :
    (conditional taken n).constraints =
      (branchSamples taken n ++ (advance "s" n ++ choice taken n)).map Clause.text := by
  rw [← List.append_assoc]
  cases taken <;> rfl

theorem holds_conditional (value : Assignment) (taken : Bool) (n : Nat) :
    HoldsOpened (branchInputs n) value (conditional taken n).constraints ↔
      holds value (advance "s" n) = true ∧ holds value (choice taken n) = true := by
  have logic : ∀ clause ∈ advance "s" n ++ choice taken n, clause.Bracketed :=
    List.forall_mem_append.mpr ⟨bracketed_advance (by decide) n, bracketed_choice taken n⟩
  have defined : (advance "s" n ++ choice taken n).any Clause.isConstant = false := by
    rw [List.any_append, isConstant_advance, isConstant_choice]
    rfl
  rw [constraints_conditional, (supplies_branchSamples taken n).holdsOpened_append logic,
    Formula.holdsBeside_iff_holds defined, Formula.holds_append, Bool.and_eq_true]

/-! ## All nibbles -/

section Meaning
variable {taken flag : Bool} {pc target : BitVec 32} {value : Assignment} {own : Nat → Bool}
  (branches : Branches taken flag pc target value own)
include branches

theorem Branches.advances : Advances "s" value own where
  nibbles n inside := ((holds_conditional _ taken n).mp (branches.nibbles n inside)).1
  links n inside := (holds_counterLink value (own (n + 1)) n).mp (branches.links n inside)

theorem Branches.sum_eq : row value "s" 32 = pc + 4 := by
  rw [branches.advances.row_eq (by decide) (by decide), branches.counter]

theorem Branches.bit_eq {i : Nat} (inside : i < 32) :
    (row value "newpc" 32).getLsbD i =
      if flag = taken then target.getLsbD i else (pc + 4).getLsbD (if i % 4 = 0 then 0 else i) := by
  have chosen := (holds_choice value _ taken (i / 4)).mp
    ((holds_conditional _ taken (i / 4)).mp (branches.nibbles (i / 4) (by omega))).2 (i % 4)
      (by omega)
  have place : 4 * (i / 4) + i % 4 = i := by omega
  have reads : readPlace (i / 4) (i % 4) = if i % 4 = 0 then 0 else i := by rw [readPlace, place]
  rw [place, reads, branches.flag] at chosen
  rw [Formula.getLsbD_row value "newpc" inside, chosen, ← branches.aim, ← branches.sum_eq,
    Formula.getLsbD_row value "target" inside, Formula.getLsbD_row value "s" (by split <;> omega)]

end Meaning

/-! ## The assignment of a jump -/

def branchRows (taken flag : Bool) (pc target : BitVec 32) (word : String) (number : Nat) : Bool :=
  if word = "zflag" then flag
  else if word = "target" then target.getLsbD number
  else if word = "s" then (pc + 4).getLsbD number
  else if word = "newpc" then
    if flag = taken then target.getLsbD number
    else (pc + 4).getLsbD (if number % 4 = 0 then 0 else number)
  else advanceRows pc word number

theorem branches_branchRows (taken flag : Bool) (pc target : BitVec 32) :
    Branches taken flag pc target (ofRows (branchRows taken flag pc target)) (advanceOwn pc) := by
  have counts :
      ∀ word ∈ ["pc", "c", "cout"], branchRows taken flag pc target word = advanceRows pc word :=
    List.forall_mem_cons.mpr
      ⟨rfl, List.forall_mem_cons.mpr ⟨rfl, List.forall_mem_singleton.mpr rfl⟩⟩
  have advances := advances_ofRows counts (by decide : Wordy "s") (by decide) fun _ => rfl
  have aim (i : Nat) :
      ofRows (branchRows taken flag pc target) (wireName "target" i) = target.getLsbD i :=
    Formula.ofRows_wireName (by decide) i _
  have sum (i : Nat) :
      ofRows (branchRows taken flag pc target) (wireName "s" i) = (pc + 4).getLsbD i :=
    Formula.ofRows_wireName (by decide) i _
  have result (i : Nat) : ofRows (branchRows taken flag pc target) (wireName "newpc" i) =
      if flag = taken then target.getLsbD i else (pc + 4).getLsbD (if i % 4 = 0 then 0 else i) :=
    Formula.ofRows_wireName (by decide) i _
  refine ⟨row_ofRows (ofRows_counter counts), row_ofRows aim, rfl, ?_, ?_⟩
  · intro n inside
    refine (holds_conditional _ taken n).mpr
      ⟨advances.nibbles n inside, (holds_choice _ _ taken n).mpr ?_⟩
    intro i small
    have place : (if (4 * n + i) % 4 = 0 then 0 else 4 * n + i) = readPlace n i := by
      rw [readPlace]
      split <;> split <;> omega
    rw [result, aim, sum, place]
    rfl
  · intro n inside
    exact (holds_counterLink _ _ n).mpr (advances.links n inside)

/-- The lowest bit of the counter plus four is that of the counter. -/
theorem getLsbD_plusFour_zero (pc : BitVec 32) : (pc + 4).getLsbD 0 = pc.getLsbD 0 := by
  rw [BitVec.getLsbD_add (by decide), getLsbD_four, BitVec.carry_zero]
  simp

/-- What a conditional jump does with all flags, counters and targets.  Its clauses can be
satisfied; where it is taken the new counter is the target; where it is not, the new counter has the
bits of the counter plus four, but in the lowest bit of every nibble the lowest bit of all.  So it
is right just where it is taken or all these bits of the counter plus four are the lowest bit of the
counter. -/
theorem conditional_jump (taken flag : Bool) (pc target : BitVec 32) :
    (∃ value own, Branches taken flag pc target value own) ∧
    ∀ value own, Branches taken flag pc target value own →
      (flag = taken → row value "newpc" 32 = target) ∧
      (flag ≠ taken → ∀ i < 32,
        (row value "newpc" 32).getLsbD i = (pc + 4).getLsbD (if i % 4 = 0 then 0 else i)) ∧
      (row value "newpc" 32 = (if flag = taken then target else pc + 4) ↔
        flag = taken ∨ ∀ n < 8, (pc + 4).getLsbD (4 * n) = pc.getLsbD 0) := by
  refine ⟨⟨_, _, branches_branchRows taken flag pc target⟩, fun value own branches => ?_⟩
  have goes : flag = taken → row value "newpc" 32 = target := by
    intro same
    apply BitVec.eq_of_getLsbD_eq
    intro i inside
    rw [branches.bit_eq inside, if_pos same]
  have passes : flag ≠ taken → ∀ i < 32,
      (row value "newpc" 32).getLsbD i = (pc + 4).getLsbD (if i % 4 = 0 then 0 else i) := by
    intro other i inside
    rw [branches.bit_eq inside, if_neg other]
  refine ⟨goes, passes, ?_⟩
  by_cases same : flag = taken
  · rw [if_pos same]
    exact ⟨fun _ => Or.inl same, fun _ => goes same⟩
  · rw [if_neg same, or_iff_right same, ← getLsbD_plusFour_zero]
    constructor
    · intro right n inside
      have bit := passes same (4 * n) (by omega)
      rw [right, if_pos (by omega)] at bit
      exact bit
    · -- only the lowest bits of the nibbles are read elsewhere, and there nothing else stands
      intro lowest
      apply BitVec.eq_of_getLsbD_eq
      intro i inside
      rw [passes same i inside]
      split
      · next first =>
          have place : 4 * (i / 4) = i := by omega
          rw [← lowest (i / 4) (by omega), place]
      · rfl

/-- A jump that is not taken at twelve goes back to zero. -/
theorem untaken_jump_falls_back :
    ∃ value own, Branches true false 12 0 value own ∧ row value "newpc" 32 = 0 ∧
      (0 : BitVec 32) ≠ 12 + 4 := by
  have branches := branches_branchRows true false 12 0
  have bits :
      ∀ i < 32, ((12 : BitVec 32) + 4).getLsbD (if i % 4 = 0 then 0 else i) = false := by decide
  refine ⟨_, _, branches, ?_, by decide⟩
  apply BitVec.eq_of_getLsbD_eq
  intro i inside
  rw [branches.bit_eq inside, if_neg Bool.false_ne_true, bits i inside]
  exact BitVec.getLsbD_zero.symm

end Zkvm.Component
