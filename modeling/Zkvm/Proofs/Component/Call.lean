import Zkvm.Proofs.Component.Advance

/-!
# Calls

A call goes to its target and puts the counter plus four on the stack, whatever the counter and the
target are, also where the sum wraps around.
-/
set_option autoImplicit false

namespace Zkvm.Component

open Formula (IsName Wordy holds ofRows wireName row HoldsOpened Supplies)

def callInputs (n : Nat) : List String :=
  names "target" n ++ names "pc" n ++ names "sp" n ++ ["cin"]

/-- The assignment satisfies the nibbles of a call and the links of their carries, with these
inputs; the name `cin` is read by every nibble as its own. -/
structure Calls (pc target : BitVec 32) (value : Assignment) (own : Nat → Bool) : Prop where
  counter : row value "pc" 32 = pc
  aim : row value "target" 32 = target
  nibbles : ∀ n < (8 : Nat),
    HoldsOpened (callInputs n) (Function.update value "cin" (own n)) (callNibble n).constraints
  links : ∀ n < (7 : Nat),
    HoldsOpened [wireName "cout" n] (Function.update value "cin" (own (n + 1)))
      (counterLink n (n + 1 : Nat)).constraints

/-! ## One nibble -/

theorem wordOf_callInputs (n : Nat) :
    ∀ name ∈ callInputs n, Formula.wordOf name ∈ ["target", "pc", "sp", "cin"] := by
  refine List.forall_mem_append.mpr
    ⟨List.forall_mem_append.mpr ⟨List.forall_mem_append.mpr ⟨?_, ?_⟩, ?_⟩, ?_⟩
  · exact fun name member => by rw [wordOf_names (by decide) member]; decide
  · exact fun name member => by rw [wordOf_names (by decide) member]; decide
  · exact fun name member => by rw [wordOf_names (by decide) member]; decide
  · exact List.forall_mem_singleton.mpr (by decide)

def callSamples (n : Nat) : List Clause :=
  samples "target" n n ++ samples "pc" n (n + 1) ++ samples "sp" n (n + 2) ++ controlCarryIn n

theorem supplies_callSamples (n : Nat) : Supplies (callInputs n) (callSamples n) := by
  have aimed := supplies_samples (by decide : IsName "target") n n
  have counted := supplies_samples (by decide : IsName "pc") n (n + 1)
  have stacked := supplies_samples (by decide : IsName "sp") n (n + 2)
  exact ((aimed.append counted).append stacked).append (supplies_controlCarryIn n)

theorem copy_eq (target source : String) (n : Nat) :
    copy target source n =
      (List.range 4).map fun i => .wire target (4 * n + i : Nat)
        (.wire source (4 * n + i : Nat)) := by
  rw [copy, places_eq, List.map_map]
  rfl

theorem bracketed_copy {target source : String} (first : IsName target) (second : IsName source)
    (n : Nat) :
    ∀ clause ∈ copy target source n, clause.Bracketed := by
  rw [copy_eq]
  exact List.forall_mem_map.mpr fun i _ =>
    Clause.bracketed_wire first _ (Term.bracketed_wire second _)

theorem holds_copy {target source : String} (first : Wordy target) (second : Wordy source)
    (apart : target ≠ "cin" ∧ source ≠ "cin") (value : Assignment) (own : Bool) (n : Nat) :
    holds (Function.update value "cin" own) (copy target source n) = true ↔
      ∀ i < 4, value (wireName target (4 * n + i : Nat)) =
        value (wireName source (4 * n + i : Nat)) := by
  rw [copy_eq, Formula.holds_map]
  simp only [List.mem_range, Formula.holds_wire, own_wire value own first apart.1]
  refine forall₂_congr fun i _ => ?_
  rw [Term.wire, Term.eval]
  exact iff_of_eq (congrArg _ (own_wire value own second apart.2 _))

theorem row_eq_of_copies {value : Assignment} {target source : String}
    (copied : ∀ n < 8, ∀ i < 4,
      value (wireName target (4 * n + i : Nat)) = value (wireName source (4 * n + i : Nat))) :
    row value target 32 = row value source 32 := by
  refine eq_of_nibbles fun n inside i small => ?_
  rw [Formula.getLsbD_row value target (by omega), Formula.getLsbD_row value source (by omega),
    copied n inside i small]

def callLogic (n : Nat) : List Clause :=
  advance "r" n ++ copy "stack" "r" n ++ copy "newpc" "target" n

theorem constraints_callNibble (n : Nat) :
    (callNibble n).constraints =
      (callSamples n ++ (callLogic n ++ [Clause.fix (wireName "spchanged" n) true])).map
      Clause.text := by
  rw [callSamples, callLogic, ← List.append_assoc, ← List.append_assoc, ← List.append_assoc]
  rfl

theorem bracketed_callLogic (n : Nat) : ∀ clause ∈ callLogic n, clause.Bracketed := by
  refine List.forall_mem_append.mpr ⟨List.forall_mem_append.mpr ⟨?_, ?_⟩, ?_⟩
  · exact bracketed_advance (by decide) n
  · exact bracketed_copy (by decide) (by decide) n
  · exact bracketed_copy (by decide) (by decide) n

theorem isConstant_callLogic (n : Nat) : (callLogic n).any Clause.isConstant = false := by
  rw [callLogic, List.any_append, List.any_append, isConstant_advance]
  rfl

/-- Besides the inputs a nibble gives one constant, that the stack has changed. -/
theorem holds_callNibble (value : Assignment) (n : Nat) :
    HoldsOpened (callInputs n) value (callNibble n).constraints ↔
      holds value (advance "r" n) = true ∧ holds value (copy "stack" "r" n) = true ∧
        holds value (copy "newpc" "target" n) = true ∧ value (wireName "spchanged" n) = true := by
  have changed : IsName (wireName "spchanged" n) := (by decide : IsName "spchanged").wire n
  -- no input has this name, so the constant stays
  have noInput : wireName "spchanged" n ∉ callInputs n := by
    intro member
    have word := wordOf_callInputs n _ member
    rw [Formula.wordOf_wireName (by decide)] at word
    exact absurd word (by decide)
  have rest :
      ∀ clause ∈ callLogic n ++ [Clause.fix (wireName "spchanged" n) true], clause.Bracketed :=
    List.forall_mem_append.mpr ⟨bracketed_callLogic n,
      List.forall_mem_singleton.mpr ⟨changed, .bit true⟩⟩
  rw [constraints_callNibble, (supplies_callSamples n).holdsOpened_append rest,
    Formula.holdsBeside_append, Formula.holdsBeside_iff_holds (isConstant_callLogic n),
    Formula.holdsBeside_fix noInput, callLogic, Formula.holds_append, Bool.and_eq_true,
    Formula.holds_append, Bool.and_eq_true, and_assoc, and_assoc]

/-! ## All nibbles -/

section Meaning
variable {pc target : BitVec 32} {value : Assignment} {own : Nat → Bool}
  (calls : Calls pc target value own)
include calls

theorem Calls.advances : Advances "r" value own where
  nibbles n inside := ((holds_callNibble _ n).mp (calls.nibbles n inside)).1
  links n inside := (holds_counterLink value (own (n + 1)) n).mp (calls.links n inside)

theorem Calls.stack_eq : row value "stack" 32 = pc + 4 := by
  rw [← calls.counter, ← calls.advances.row_eq (by decide) (by decide)]
  refine row_eq_of_copies fun n inside => ?_
  exact (holds_copy (by decide) (by decide) (by decide) value (own n) n).mp
    ((holds_callNibble _ n).mp (calls.nibbles n inside)).2.1

theorem Calls.newpc_eq : row value "newpc" 32 = target := by
  rw [← calls.aim]
  refine row_eq_of_copies fun n inside => ?_
  exact (holds_copy (by decide) (by decide) (by decide) value (own n) n).mp
    ((holds_callNibble _ n).mp (calls.nibbles n inside)).2.2.1

end Meaning

/-! ## The assignment of a call -/

def callRows (pc target : BitVec 32) (word : String) (number : Nat) : Bool :=
  if word = "target" ∨ word = "newpc" then target.getLsbD number
  else if word = "r" ∨ word = "stack" then (pc + 4).getLsbD number
  else if word = "spchanged" then true
  else advanceRows pc word number

theorem calls_callRows (pc target : BitVec 32) :
    Calls pc target (ofRows (callRows pc target)) (advanceOwn pc) := by
  have counts : ∀ word ∈ ["pc", "c", "cout"], callRows pc target word = advanceRows pc word :=
    List.forall_mem_cons.mpr
      ⟨rfl, List.forall_mem_cons.mpr ⟨rfl, List.forall_mem_singleton.mpr rfl⟩⟩
  have advances := advances_ofRows counts (by decide : Wordy "r") (by decide) fun _ => rfl
  have aim (i : Nat) : ofRows (callRows pc target) (wireName "target" i) = target.getLsbD i :=
    Formula.ofRows_wireName (by decide) i _
  have result (i : Nat) : ofRows (callRows pc target) (wireName "newpc" i) = target.getLsbD i :=
    Formula.ofRows_wireName (by decide) i _
  have sum (i : Nat) : ofRows (callRows pc target) (wireName "r" i) = (pc + 4).getLsbD i :=
    Formula.ofRows_wireName (by decide) i _
  have saved (i : Nat) : ofRows (callRows pc target) (wireName "stack" i) = (pc + 4).getLsbD i :=
    Formula.ofRows_wireName (by decide) i _
  have changed (n : Nat) : ofRows (callRows pc target) (wireName "spchanged" n) = true :=
    Formula.ofRows_wireName (by decide) n _
  refine ⟨row_ofRows (ofRows_counter counts), row_ofRows aim, ?_, ?_⟩
  · intro n inside
    refine (holds_callNibble _ n).mpr ⟨advances.nibbles n inside, ?_, ?_, ?_⟩
    · refine (holds_copy (by decide) (by decide) (by decide) _ _ n).mpr fun i _ => ?_
      rw [saved, sum]
    · refine (holds_copy (by decide) (by decide) (by decide) _ _ n).mpr fun i _ => ?_
      rw [result, aim]
    · rw [own_wire _ _ (by decide) (by decide), changed]
  · intro n inside
    exact (holds_counterLink _ _ n).mpr (advances.links n inside)

/-- A call can be made with all counters and targets, and it always goes to the target and leaves
the counter plus four, up to wrapping around, on the stack. -/
theorem call_saves_return (pc target : BitVec 32) :
    (∃ value own, Calls pc target value own) ∧
    ∀ value own, Calls pc target value own →
      row value "newpc" 32 = target ∧ (row value "stack" 32).toNat = (pc.toNat + 4) % 2 ^ 32 := by
  refine ⟨⟨_, _, calls_callRows pc target⟩, fun value own calls => ⟨calls.newpc_eq, ?_⟩⟩
  rw [calls.stack_eq, BitVec.toNat_add]
  rfl

end Zkvm.Component
