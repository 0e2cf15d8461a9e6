import Mathlib.Data.Int.ModEq
import Mathlib.Tactic.NormNum
import Mathlib.Tactic.Tauto
import Zkvm.Lookup.Notations
import Zkvm.Proofs.Circuit.Limits
import Zkvm.Proofs.Lookup.Decision

/-!
# Entries of differences

Neither form of a subtraction decides the difference.  The long one loses carries, and its statement
never fits in the length that a file may have.  The short one adds the operands with one carried in,
and what it accepts has the wrong parity.
-/
set_option autoImplicit false

namespace Zkvm.Lookup

open Formula Circuit
open Term (wire joined)

/-! ## The long form -/

def carryInto : Nat → Term
  | 0 => .bit true
  | i + 1 => wire "c" i

theorem bracketed_carryInto (i : Nat) : (carryInto i).Bracketed := by
  cases i with
  | zero => exact .bit true
  | succ i => exact Term.bracketed_wire (by decide) i

theorem mem_names_carryInto {i : Nat} {used : String} (inside : used ∈ (carryInto i).names) :
    ∃ j < i, wireName "c" (j : Nat) = used := by
  cases i with
  | zero => cases inside
  | succ i => exact ⟨i, Nat.lt_succ_self i, (List.mem_singleton.mp inside).symm⟩

theorem eval_carryInto {value : Assignment} {i : Nat} {carry : Nat → Bool} (first : carry 0 = true)
    (before : ∀ j < i, value (wireName "c" (j : Nat)) = carry (j + 1)) :
    (carryInto i).eval value = carry i := by
  cases i with
  | zero => exact first.symm
  | succ i => exact before i (Nat.lt_succ_self i)

/-- The term has the meaning of a carry, in brackets, and names only what it is made of. -/
structure CarryTerm (carryOn : Term → Term → Term → Term) (handsOn : Bool → Bool → Bool → Bool) :
    Prop where
  eval : ∀ (value : Assignment) (a n before : Term),
    (carryOn a n before).eval value = handsOn (a.eval value) (n.eval value) (before.eval value)
  bracketed : ∀ {a n before : Term},
    a.Bracketed → n.Bracketed → before.Bracketed → (carryOn a n before).Bracketed
  names : ∀ {a n before : Term} {used : String}, used ∈ (carryOn a n before).names →
    used ∈ a.names ∨ used ∈ n.names ∨ used ∈ before.names

theorem carryTerm_borrowCarry : CarryTerm borrowCarry carriedOn where
  eval := eval_borrowCarry
  bracketed := .borrowCarry
  names := by
    intro a n before used inside
    simp only [borrowCarry, Term.names, Term.names_and, Term.names_xor, Term.names_or,
      List.mem_append] at inside
    tauto

theorem carryTerm_carry : CarryTerm Term.carry handedOn where
  eval := eval_carry
  bracketed := .carry
  names := Term.mem_names_carry.mp

section Long
variable {carryOn : Term → Term → Term → Term} {handsOn : Bool → Bool → Bool → Bool} (a b : Int)

theorem adds_complement :
    Adds (wires "a" (BitVec.ofInt 8 a) ++ wires "b" (BitVec.ofInt 8 b)) (complement "b" 8)
      (wires "nb" (~~~BitVec.ofInt 8 b)) := by
  have second :=
    List.subset_append_right (wires "a" (BitVec.ofInt 8 a)) (wires "b" (BitVec.ofInt 8 b))
  change Adds _ ((List.range 8).map fun i : Nat => .wire "nb" i (wire "b" i).flipped) _
  apply adds_row (by decide)
  · intro i _
    exact (Term.bracketed_wire (by decide) i).flipped
  · intro i inside
    exact List.forall_mem_singleton.mpr (wireName_mem_keys second inside)
  · intro value agrees i inside
    rw [Term.eval_flipped, getLsbD_not _ inside]
    exact congrArg not (row_of_listed second agrees inside)

theorem adds_subtractionChain (carries : CarryTerm carryOn handsOn) {table : List (String × Bool)}
    {x y : BitVec 8} (first : wires "a" x ⊆ table) (flipped : wires "nb" (~~~y) ⊆ table) :
    Adds table (subtractionChainWith carryOn "a" 8) (wires "s" (chainSum handsOn x y) ++
      wires "c" (chainCarries handsOn x y)) := by
  have left (i : Nat) : (wire "a" i).Bracketed := Term.bracketed_wire (by decide) i
  have right (i : Nat) : (wire "nb" i).Bracketed := Term.bracketed_wire (by decide) i
  change Adds table ((List.range 8).flatMap fun i : Nat =>
    [.wire "s" i (.sum (wire "a" i) (wire "nb" i) (carryInto i)),
      .wire "c" i (carryOn (wire "a" i) (wire "nb" i) (carryInto i))]) _
  apply adds_pairs (by decide) (by decide)
  · intro i _
    have into := bracketed_carryInto i
    exact ⟨(left i).sum (right i) into, carries.bracketed (left i) (right i) into⟩
  · intro i inside used there
    have parts :
        used ∈ (wire "a" i).names ∨ used ∈ (wire "nb" i).names ∨ used ∈ (carryInto i).names := by
      rcases List.mem_append.mp there with there | there
      · exact Term.mem_names_sum.mp there
      · exact carries.names there
    rcases parts with here | here | here
    · rw [List.mem_singleton.mp here]
      exact .inl (wireName_mem_keys first inside)
    · rw [List.mem_singleton.mp here]
      exact .inl (wireName_mem_keys flipped inside)
    · exact .inr (mem_names_carryInto here)
  · intro value agrees i inside before
    have minuend : (wire "a" i).eval value = x.getLsbD i := row_of_listed first agrees inside
    have subtrahend : (wire "nb" i).eval value = !y.getLsbD i :=
      (row_of_listed flipped agrees inside).trans (getLsbD_not y inside)
    have carry : (carryInto i).eval value = chainCarry handsOn x y i := by
      refine eval_carryInto rfl fun j earlier => ?_
      rw [before j earlier, getLsbD_chainCarries handsOn x y (by omega)]
    rw [eval_sum, carries.eval, minuend, subtrahend, carry, getLsbD_chainSum handsOn x y inside,
      getLsbD_chainCarries handsOn x y inside]
    exact ⟨rfl, rfl⟩

/-- An entry of a difference with a term for what is carried on. -/
def longForm (carryOn : Term → Term → Term → Term) (a b expected : Int) : List Clause :=
  operands a "b" b ++ (complement "b" 8 ++ subtractionChainWith carryOn "a" 8) ++
    verify expected "s" 8

theorem encode_sub (expected : Int) :
    encode .sub 8 a b expected = longForm borrowCarry a b expected := by
  rw [longForm, ← List.append_assoc]
  rfl

theorem longForm_decides (carries : CarryTerm carryOn handsOn) (expected : Int) :
    Decides (Formula.text (longForm carryOn a b expected)) "result"
      (chainSum handsOn (BitVec.ofInt 8 a) (BitVec.ofInt 8 b) = BitVec.ofInt 8 expected) := by
  have first :
      wires "a" (BitVec.ofInt 8 a) ⊆ wires "a" (BitVec.ofInt 8 a) ++ wires "b" (BitVec.ofInt 8 b) ++
      wires "nb" (~~~BitVec.ofInt 8 b) :=
    List.subset_append_of_subset_left _ (List.subset_append_left _ _)
  have chain := adds_subtractionChain carries first (List.subset_append_right _ _)
  refine entry_decides ["nb", "s", "c"] (by decide) (by decide)
    ((adds_complement a b).append chain) ?_ ?_
    (nodup_rowNames_append (by decide) (by decide) (by decide) (by decide +kernel)) expected
  · exact List.subset_append_of_subset_right _ (List.subset_append_left _ _)
  · simp only [List.map_append, keys_wires]
    rfl

end Long

/-! ## Lengths -/

/-- The letters of clauses, with the four that join each to the next. -/
def weight (clauses : List Clause) : Nat :=
  (clauses.map fun clause => clause.text.length + 4).sum

theorem weight_append (first second : List Clause) :
    weight (first ++ second) = weight first + weight second := by
  rw [weight, List.map_append, List.sum_append, weight, weight]

theorem length_text {clauses : List Clause} (filled : clauses ≠ []) :
    (Formula.text clauses).length + 4 = weight clauses := by
  rw [Formula.text, length_joinTexts (by simpa using filled), List.map_map]
  rfl

theorem weight_fixBits (value : Int) (name : String) :
    weight (fixBits value name 8) =
      ((List.range 8).map fun i : Nat => (wireName name i).length + 6).sum := by
  have one (bit : Bool) : (Term.bit bit).text.length = 1 := by cases bit <;> rfl
  change weight ((List.range 8).map fun i : Nat => .wire name i (.bit (bitOf value i))) = _
  rw [weight, List.map_map]
  refine congrArg List.sum (List.map_congr_left fun i _ => ?_)
  change ((wireName name i ++ "=") ++ (Term.bit (bitOf value i)).text).length + 4 = _
  rw [String.length_append, String.length_append, one]
  rfl

def zeros (value : Int) : Nat :=
  (List.range 8).countP fun i => !bitOf value i

theorem length_check (name : String) (expected : Bool) :
    (check name expected).text.length = name.length + if expected then 0 else 4 := by
  cases expected with
  | true => rfl
  | false =>
      change ("(" ++ (name ++ "+" ++ "1") ++ ")").length = _
      rw [String.length_append, String.length_append, String.length_append, String.length_append]
      change 1 + (name.length + 1 + 1) + 1 = name.length + 4
      omega

/-- A check of a zero is four letters longer than one of a one. -/
theorem weight_checks (expected : Int) (name : String) :
    weight
      ((List.range 8).map fun i : Nat => .wire "t" i (check (wireName name i) (bitOf expected i))) =
      ((List.range 8).map fun i : Nat =>
        (wireName "t" i).length + (wireName name i).length + 5).sum + 4 * zeros expected := by
  have each (i : Nat) :
      (Clause.wire "t" i (check (wireName name i) (bitOf expected i))).text.length + 4 =
      (wireName "t" i).length + (wireName name i).length + 5 +
        if bitOf expected i then 0 else 4 := by
    change
      ((wireName "t" i ++ "=") ++ (check (wireName name i) (bitOf expected i)).text).length + 4 = _
    rw [String.length_append, String.length_append, length_check]
    change (wireName "t" i).length + 1 + _ + 4 = _
    omega
  rw [weight, List.map_map, zeros]
  simp only [Function.comp_def, each]
  induction List.range 8 with
  | nil => rfl
  | cons i rest ih =>
      rw [List.map_cons, List.sum_cons, ih, List.map_cons, List.sum_cons, List.countP_cons]
      cases bitOf expected i <;> simp <;> omega

theorem length_encode_sub (a b expected : Int) :
    (Formula.text (encode .sub 8 a b expected)).length = 773 + 4 * zeros expected := by
  have filled : encode .sub 8 a b expected ≠ [] := List.cons_ne_nil _ _
  have whole := length_text filled
  have parts : encode .sub 8 a b expected = fixBits a "a" 8 ++ fixBits b "b" 8 ++
      (complement "b" 8 ++ subtractionChain "a" 8) ++
      ((List.range 8).map fun i : Nat =>
        Clause.wire "t" i (check (wireName "s" i) (bitOf expected i))) ++
      [Clause.define "result"
        (.group (joined .and ((List.range 8).map fun i : Nat => wire "t" i)))] := rfl
  have inputs (name : String) (short : ∀ i < (8 : Nat), (wireName name i).length = 2) :
      ((List.range 8).map fun i : Nat => (wireName name i).length + 6).sum = 64 := by
    rw [List.map_congr_left fun i member => by rw [short i (List.mem_range.mp member)]]
    rfl
  have chain : weight (complement "b" 8 ++ subtractionChain "a" 8) = 541 := by decide +kernel
  have checks :
      ((List.range 8).map fun i : Nat => (wireName "t" i).length + (wireName "s" i).length +
        5).sum = 72 := by
    decide +kernel
  have gathered :
      weight
        [.define "result" (.group (joined .and ((List.range 8).map fun i : Nat => wire "t" i)))] =
        36 := by
    decide +kernel
  rw [parts, weight_append, weight_append, weight_append, weight_append, weight_fixBits,
    weight_fixBits, chain, weight_checks, checks, gathered, inputs "a" (by decide +kernel),
    inputs "b" (by decide +kernel)] at whole
  rw [parts]
  omega

theorem file_sub (directory description : String) (a b expected : Int) :
    Settings.file { directory } .sub ⟨a, b, expected, description⟩ =
      .error (.tooLong none (773 + 4 * zeros expected)) := by
  have long : (700 : Int) < (Formula.text (encode .sub 8 a b expected)).length := by
    rw [length_encode_sub]
    omega
  unfold Settings.file
  dsimp only
  rw [if_pos long, length_encode_sub]

/-! ## The short form -/

section Short
variable {width : Nat} (x y : BitVec width)

def shortCarry : Nat → Bool
  | 0 => true
  | 1 => x.getLsbD 0 || !y.getLsbD 0
  | i + 2 => (x.getLsbD (i + 1) || y.getLsbD (i + 1)) && shortCarry (i + 1)

def shortCarries : BitVec width :=
  BitVec.ofFnLE fun i => shortCarry x y (i + 1)

/-- What the short form takes for the difference. -/
def shortDifference : BitVec width :=
  BitVec.ofFnLE fun i => (x.getLsbD i ^^ y.getLsbD i) ^^ shortCarry x y i

variable {i : Nat} (inside : i < width)
include inside

theorem getLsbD_shortCarries : (shortCarries x y).getLsbD i = shortCarry x y (i + 1) := by
  rw [shortCarries, BitVec.getLsbD_ofFnLE, dif_pos inside]

theorem getLsbD_shortDifference :
    (shortDifference x y).getLsbD i = ((x.getLsbD i ^^ y.getLsbD i) ^^ shortCarry x y i) := by
  rw [shortDifference, BitVec.getLsbD_ofFnLE, dif_pos inside]

end Short

def shortCarryTerm : Nat → Term
  | 0 => .group (.group (wire "a" 0 ||| (wire "b" 0).flipped) &&& .group (wire "b" 0 ||| .bit true))
  | i + 1 => .group (.group (wire "a" (i + 1 : Nat) ||| wire "b" (i + 1 : Nat)) &&& wire "c" i)

theorem bracketed_shortCarryTerm (i : Nat) : (shortCarryTerm i).Bracketed := by
  have left (i : Nat) : (wire "a" i).Bracketed := Term.bracketed_wire (by decide) i
  have right (i : Nat) : (wire "b" i).Bracketed := Term.bracketed_wire (by decide) i
  cases i with
  | zero => exact .pair rfl (.pair rfl (left 0) (right 0).flipped) (.pair rfl (right 0) (.bit true))
  | succ i => exact .pair rfl (.pair rfl (left _) (right _)) (Term.bracketed_wire (by decide) i)

theorem mem_names_shortCarryTerm {i : Nat} {used : String}
    (there : used ∈ (shortCarryTerm i).names) :
    used = wireName "a" i ∨ used = wireName "b" i ∨ ∃ j < i, wireName "c" (j : Nat) = used := by
  cases i with
  | zero =>
      have names :
          (shortCarryTerm 0).names = [wireName "a" 0, wireName "b" 0, wireName "b" 0] := rfl
      rw [names] at there
      simp only [List.mem_cons, List.not_mem_nil, or_false, or_self] at there
      exact there.imp_right .inl
  | succ i =>
      rcases List.mem_cons.mp there with same | there
      · exact .inl same
      · rcases List.mem_pair.mp there with same | same
        · exact .inr (.inl same)
        · exact .inr (.inr ⟨i, Nat.lt_succ_self i, same.symm⟩)

def shortChain : List Clause :=
  (List.range 8).flatMap fun i : Nat =>
    [.wire "s" i (.sum (wire "a" i) (wire "b" i) (carryInto i)), .wire "c" i (shortCarryTerm i)]

section Short
variable {table : List (String × Bool)} {x y : BitVec 8}

theorem adds_shortChain (first : wires "a" x ⊆ table) (second : wires "b" y ⊆ table) :
    Adds table shortChain (wires "s" (shortDifference x y) ++ wires "c" (shortCarries x y)) := by
  apply adds_pairs (by decide) (by decide)
  · intro i _
    refine ⟨?_, bracketed_shortCarryTerm i⟩
    exact (Term.bracketed_wire (by decide) i).sum (Term.bracketed_wire (by decide) i)
      (bracketed_carryInto i)
  · intro i inside used there
    have parts :
        used = wireName "a" i ∨ used = wireName "b" i ∨ ∃ j < i, wireName "c" (j : Nat) = used := by
      rcases List.mem_append.mp there with there | there
      · rcases Term.mem_names_sum.mp there with here | here | here
        · exact .inl (List.mem_singleton.mp here)
        · exact .inr (.inl (List.mem_singleton.mp here))
        · exact .inr (.inr (mem_names_carryInto here))
      · exact mem_names_shortCarryTerm there
    rcases parts with rfl | rfl | earlier
    · exact .inl (wireName_mem_keys first inside)
    · exact .inl (wireName_mem_keys second inside)
    · exact .inr earlier
  · intro value agrees i inside before
    have left : (wire "a" i).eval value = x.getLsbD i := row_of_listed first agrees inside
    have right : (wire "b" i).eval value = y.getLsbD i := row_of_listed second agrees inside
    have carried : ∀ j < i, value (wireName "c" (j : Nat)) = shortCarry x y (j + 1) := by
      intro j earlier
      rw [before j earlier, getLsbD_shortCarries x y (by omega)]
    constructor
    · rw [eval_sum, left, right, eval_carryInto rfl carried, getLsbD_shortDifference x y inside]
    · rw [getLsbD_shortCarries x y inside]
      cases i with
      | zero =>
          change (((wire "a" (0 : Nat)).eval value || (wire "b" (0 : Nat)).flipped.eval value) &&
            ((wire "b" (0 : Nat)).eval value || true)) = _
          rw [Term.eval_flipped, left, right, Bool.or_true, Bool.and_true, shortCarry]
      | succ i =>
          change (((wire "a" (i + 1 : Nat)).eval value || (wire "b" (i + 1 : Nat)).eval value) &&
            value (wireName "c" (i : Nat))) = _
          rw [left, right, carried i (Nat.lt_succ_self i), shortCarry]

end Short

def shortInputs (a b : Int) : List Clause :=
  (List.range 8).flatMap fun i : Nat =>
    [.wire "a" i (.bit (bitOf a i)), .wire "b" i (.bit (bitOf b i))]

theorem adds_shortInputs (a b : Int) :
    Adds [] (shortInputs a b) (wires "a" (BitVec.ofInt 8 a) ++ wires "b" (BitVec.ofInt 8 b)) := by
  apply adds_pairs (by decide) (by decide)
  · intro i _
    exact ⟨.bit _, .bit _⟩
  · intro i _
    exact List.forall_mem_nil _
  · intro value _ i inside _
    rw [Term.eval, Term.eval, getLsbD_ofInt inside, getLsbD_ofInt inside, bitOf_eq_testBit,
      bitOf_eq_testBit]
    exact ⟨rfl, rfl⟩

def half (first : Nat) : List Nat :=
  (List.range 4).map (first + ·)

def shortGathered : List Clause :=
  let gathered (first : Nat) :=
    Term.group (joined .and ((List.range 4).map fun i : Nat => wire "t" (first + i)))
  [.define "r1" (gathered 0), .define "r2" (gathered 4),
    .define "result" (.group (.var "r1" &&& .var "r2"))]

theorem adds_shortGathered {table : List (String × Bool)} {z e : BitVec 8}
    (listed : wires "t" (~~~(z ^^^ e)) ⊆ table) :
    Adds table shortGathered [("r1", (half 0).all (~~~(z ^^^ e)).getLsbD),
      ("r2", (half 4).all (~~~(z ^^^ e)).getLsbD), ("result", decide (z = e))] := by
  have places : shortGathered =
      [Clause.define "r1" (.group (joined .and ((half 0).map fun i : Nat => wire "t" i)))] ++
      [Clause.define "r2" (.group (joined .and ((half 4).map fun i : Nat => wire "t" i)))] ++
      [Clause.define "result" (.group (.var "r1" &&& .var "r2"))] := by
    simp only [shortGathered, half, List.map_map, Function.comp_def, Int.natCast_add,
      List.cons_append, List.nil_append]
  have lower :
      Adds table [.define "r1" (.group (joined .and ((half 0).map fun i : Nat => wire "t" i)))]
        [("r1", (half 0).all (~~~(z ^^^ e)).getLsbD)] :=
    adds_all (by decide) (by decide) listed (by decide) (by decide)
  have upper : Adds (table ++ [("r1", (half 0).all (~~~(z ^^^ e)).getLsbD)])
      [.define "r2" (.group (joined .and ((half 4).map fun i : Nat => wire "t" i)))]
      [("r2", (half 4).all (~~~(z ^^^ e)).getLsbD)] :=
    adds_all (by decide) (by decide) (List.subset_append_of_subset_left _ listed) (by decide)
      (by decide)
  have last : Adds (table ++ ([("r1", (half 0).all (~~~(z ^^^ e)).getLsbD)] ++
      [("r2", (half 4).all (~~~(z ^^^ e)).getLsbD)]))
        [.define "result" (.group (.var "r1" &&& .var "r2"))]
      [("result", decide (z = e))] := by
    apply adds_define (by decide)
    · exact .pair rfl (.var (by decide)) (.var (by decide))
    · change ∀ used ∈ ["r1", "r2"], _
      simp
    · intro value agrees
      simp only [agrees_append] at agrees
      obtain ⟨_, first, second⟩ := agrees
      rw [Term.eval, Term.eval_and, Term.eval, Term.eval, first _ (List.mem_singleton_self _),
        second _ (List.mem_singleton_self _), ← List.all_append, ← all_not_xor_eq]
      rfl
  rw [places]
  exact (lower.append upper).append last

def shortTable (x y e : BitVec 8) : List (String × Bool) :=
  wires "a" x ++ wires "b" y ++ (wires "s" (shortDifference x y) ++ wires "c" (shortCarries x y)) ++
    wires "t" (~~~(shortDifference x y ^^^ e)) ++
    [("r1", (half 0).all (~~~(shortDifference x y ^^^ e)).getLsbD),
      ("r2", (half 4).all (~~~(shortDifference x y ^^^ e)).getLsbD),
      ("result", decide (shortDifference x y = e))]

theorem compactSubtraction_eq (a b expected : Int) : compactSubtraction ⟨a, b, expected⟩ =
    shortInputs a b ++ shortChain ++
      ((List.range 8).map fun i : Nat =>
        Clause.wire "t" i (check (wireName "s" i) (bitOf expected i))) ++
      shortGathered := by
  have chain :
      [Clause.wire "s" 0 (.sum (wire "a" 0) (wire "b" 0) (.bit true)),
        .wire "c" 0 (shortCarryTerm 0)] ++
      ((laterPlaces 8).flatMap fun i : Nat =>
        [Clause.wire "s" i (.sum (wire "a" i) (wire "b" i) (wire "c" (i - 1))),
        .wire "c" i (.group (.group (wire "a" i ||| wire "b" i) &&& wire "c" (i - 1)))]) =
          shortChain := rfl
  rw [← chain, ← List.append_assoc]
  rfl

theorem adds_shortForm (a b expected : Int) :
    Adds [] (compactSubtraction ⟨a, b, expected⟩)
      (shortTable (BitVec.ofInt 8 a) (BitVec.ofInt 8 b) (BitVec.ofInt 8 expected)) := by
  have chained := (adds_shortInputs a b).append
    (adds_shortChain (List.subset_append_left _ _) (List.subset_append_right _ _))
  have sums : wires "s" (shortDifference (BitVec.ofInt 8 a) (BitVec.ofInt 8 b)) ⊆
      wires "a" (BitVec.ofInt 8 a) ++ wires "b" (BitVec.ofInt 8 b) ++
        (wires "s" (shortDifference (BitVec.ofInt 8 a) (BitVec.ofInt 8 b)) ++
          wires "c" (shortCarries (BitVec.ofInt 8 a) (BitVec.ofInt 8 b))) :=
    List.subset_append_of_subset_right _ (List.subset_append_left _ _)
  rw [compactSubtraction_eq]
  exact (chained.append (adds_checks (by decide) sums expected)).append
    (adds_shortGathered (List.subset_append_right _ _))

theorem shortForm_decides (a b expected : Int) :
    Decides (Formula.text (compactSubtraction ⟨a, b, expected⟩)) "result"
      (shortDifference (BitVec.ofInt 8 a) (BitVec.ofInt 8 b) = BitVec.ofInt 8 expected) := by
  have gathered : Clause.define "result" (.group (.var "r1" &&& .var "r2")) ∈
    compactSubtraction ⟨a, b, expected⟩ :=
    List.mem_append_right _
      (List.mem_cons_of_mem _ (List.mem_cons_of_mem _ (List.mem_singleton_self _)))
  have distinct : (rowNames ["a", "b", "s", "c", "t"] ++ ["r1", "r2", "result"]).Nodup :=
    nodup_rowNames_append (by decide) (by decide) (by decide) (by decide +kernel)
  refine ((adds_shortForm a b expected).decides ?_ (List.mem_append_right _ (List.mem_cons_of_mem _
    (List.mem_cons_of_mem _ (List.mem_singleton_self _)))) ⟨_, gathered, List.mem_cons_self⟩).congr
      decide_eq_true_iff
  simpa only [shortTable, List.map_append, keys_wires, rowNames, List.flatMap_cons,
    List.flatMap_nil, List.append_nil, List.append_assoc, List.map_cons, List.map_nil]
      using distinct

/-! ## What is accepted -/

theorem ofInt_sub (width : Nat) (a b : Int) :
    BitVec.ofInt width (a - b) = BitVec.ofInt width a - BitVec.ofInt width b := by
  rw [Int.sub_eq_add_neg, BitVec.ofInt_add, BitVec.ofInt_neg, BitVec.sub_eq_add_neg]

/-- What the short form accepts has never the parity of the difference. -/
theorem lowest_of_shortDifference (a b : Int) :
    (shortDifference (BitVec.ofInt 8 a) (BitVec.ofInt 8 b)).getLsbD 0 =
      !(BitVec.ofInt 8 (a - b)).getLsbD 0 := by
  have inside : 0 < 8 := by decide
  rw [ofInt_sub, ← chainSum_handedOn, getLsbD_chainSum handedOn _ _ inside,
    getLsbD_shortDifference _ _ inside]
  cases (BitVec.ofInt 8 a).getLsbD 0 <;> cases (BitVec.ofInt 8 b).getLsbD 0 <;> rfl

theorem toNat_ofInt_mod {value : Int} {i : Nat} (inside : i ≤ 8) :
    (((BitVec.ofInt 8 value).toNat % 2 ^ i : Nat) : Int) = value % 2 ^ i := by
  have divides : (2 ^ i : Int) ∣ 256 := by
    rw [show (256 : Int) = 2 ^ 8 by norm_num]
    exact pow_dvd_pow 2 inside
  rw [BitVec.toNat_ofInt, Int.natCast_mod, Int.toNat_of_nonneg (Int.emod_nonneg _ (by norm_num))]
  push_cast
  exact Int.emod_emod_of_dvd value divides

/-- The long form accepts the difference and nothing else exactly if no carry below the highest
place is lost. -/
theorem longForm_decides_difference_iff (a b : Int) :
    (∀ expected,
      Decides (Formula.text (encode .sub 8 a b expected)) "result" (expected ≡ a - b [ZMOD 256])) ↔
      ∀ i : Nat, i + 1 < 8 → a % 2 ^ (i + 1) < b % 2 ^ (i + 1) + 2 ^ i := by
  have decided (expected : Int) :=
    encode_sub a b expected ▸ longForm_decides a b carryTerm_borrowCarry expected
  have near : (∀ i : Nat, i + 1 < 8 → a % 2 ^ (i + 1) < b % 2 ^ (i + 1) + 2 ^ i) ↔
      chainSum carriedOn (BitVec.ofInt 8 a) (BitVec.ofInt 8 b) = BitVec.ofInt 8 (a - b) := by
    rw [ofInt_sub, chainSum_eq_sub_iff]
    refine forall₂_congr fun i inside => ?_
    rw [← toNat_ofInt_mod (by omega), ← toNat_ofInt_mod (by omega)]
    norm_cast
  rw [near]
  constructor
  · intro decides
    exact ((decided (a - b)).iff (decides (a - b))).mpr (Int.ModEq.refl _)
  · intro right expected
    refine (decided expected).congr ?_
    rw [right, ofInt_eq_ofInt_iff]

/-- Entries of differences, for all integers.  No file is made of one, since its statement is too
long.  The statement of the long form has one solution, which accepts the difference less twice the
carries that are lost; for given operands it decides the difference exactly if nowhere below the
highest place the bits so far of the first exceed those of the second by the weight of the place.
With the carry of a full adder it would decide the difference.  The statement of the short form has
one solution too, and what it accepts differs from the difference in the lowest bit. -/
theorem difference_undecided (a b expected : Int) (directory description : String) :
    Settings.file { directory } .sub ⟨a, b, expected, description⟩ =
      .error (.tooLong none (773 + 4 * zeros expected)) ∧
    Decides (Formula.text (encode .sub 8 a b expected)) "result"
      (BitVec.ofInt 8 a - BitVec.ofInt 8 b - lost (BitVec.ofInt 8 a) (BitVec.ofInt 8 b) <<< 1 =
        BitVec.ofInt 8 expected) ∧
    ((∀ value,
      Decides (Formula.text (encode .sub 8 a b value)) "result" (value ≡ a - b [ZMOD 256])) ↔
      ∀ i : Nat, i + 1 < 8 → a % 2 ^ (i + 1) < b % 2 ^ (i + 1) + 2 ^ i) ∧
    Decides (Formula.text (longForm Term.carry a b expected)) "result"
      (expected ≡ a - b [ZMOD 256]) ∧
    Decides (Formula.text (compactSubtraction ⟨a, b, expected⟩)) "result"
      (shortDifference (BitVec.ofInt 8 a) (BitVec.ofInt 8 b) = BitVec.ofInt 8 expected) ∧
    (shortDifference (BitVec.ofInt 8 a) (BitVec.ofInt 8 b)).getLsbD 0 =
      !(BitVec.ofInt 8 (a - b)).getLsbD 0 := by
  refine ⟨file_sub directory description a b expected, ?_, longForm_decides_difference_iff a b, ?_,
    shortForm_decides a b expected, lowest_of_shortDifference a b⟩
  · rw [encode_sub, ← chainSum_carriedOn]
    exact longForm_decides a b carryTerm_borrowCarry expected
  · refine (longForm_decides a b carryTerm_carry expected).congr ?_
    rw [chainSum_handedOn, ← ofInt_sub, ofInt_eq_ofInt_iff]

/-- One less zero is one, but neither form accepts it. -/
theorem one_less_zero_refused :
    Settings.file { directory := "lookups" } .sub ⟨1, 0, 1, ""⟩ = .error (.tooLong none 801) ∧
    ¬ Decides (Formula.text (encode .sub 8 1 0 1)) "result" (1 ≡ 1 - 0 [ZMOD 256]) ∧
    ¬ Decides (Formula.text (compactSubtraction ⟨1, 0, 1⟩)) "result" (1 ≡ 1 - 0 [ZMOD 256]) := by
  have right : (1 : Int) ≡ 1 - 0 [ZMOD 256] := rfl
  have long := file_sub "lookups" "" 1 0 1
  rw [show zeros 1 = 7 by decide] at long
  refine ⟨long, ?_, ?_⟩
  · intro decides
    have accepted :=
      ((encode_sub 1 0 1 ▸ longForm_decides 1 0 carryTerm_borrowCarry 1).iff decides).mpr right
    revert accepted
    decide
  · intro decides
    have accepted := ((shortForm_decides 1 0 1).iff decides).mpr right
    revert accepted
    decide

end Zkvm.Lookup
