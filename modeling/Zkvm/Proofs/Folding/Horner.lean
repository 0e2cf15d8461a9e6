import Mathlib.Algebra.BigOperators.Fin
import Mathlib.Tactic.Ring
import Zkvm.Folding.Decomposition
import Zkvm.Proofs.Formula.Row

/-!
# Polynomials by equations

A polynomial of low degree has one equation, which fixes its value.  One of high degree has a chain
of equations, from the highest coefficient down, and there the highest coefficient is only a name:
no equation says what it stands for, so that the value of the polynomial is fixed up to a multiple
of the highest power.
-/
set_option autoImplicit false

namespace Zkvm.Folding
open Formula (wireName wireName_inj wireName_ne)

/-! ## Values of polynomials -/

def polynomialValue (coefficients : List Int) (x : Int) : Int :=
  ∑ i : Fin coefficients.length, coefficients.get i * x ^ (i : Nat)

theorem polynomialValue_nil (x : Int) : polynomialValue [] x = 0 :=
  rfl

theorem polynomialValue_cons (first : Int) (rest : List Int) (x : Int) :
    polynomialValue (first :: rest) x = first + x * polynomialValue rest x := by
  have head :=
    Fin.sum_univ_succ fun i : Fin (rest.length + 1) => (first :: rest).get i * x ^ (i : Nat)
  refine head.trans ?_
  rw [polynomialValue, Finset.mul_sum]
  congr 1
  · simp
  · refine Finset.sum_congr rfl fun i _ => ?_
    simp only [List.get_eq_getElem, Fin.val_succ, List.getElem_cons_succ, pow_succ]
    ring

theorem polynomialValue_concat (front : List Int) (lead x : Int) :
    polynomialValue (front ++ [lead]) x = polynomialValue front x + lead * x ^ front.length := by
  induction front with
  | nil => simp [polynomialValue_cons, polynomialValue_nil]
  | cons first rest ih =>
      rw [List.cons_append, polynomialValue_cons, polynomialValue_cons, ih, List.length_cons,
        pow_succ]
      ring

/-- Horner's scheme over numbered coefficients, the highest of which is given apart. -/
theorem foldr_horner (coefficients : List Int) (x lead : Int) (start : Nat) :
    (coefficients.zipIdx start).foldr (fun step above => step.1 + x * above) lead =
      polynomialValue (coefficients ++ [lead]) x := by
  induction coefficients generalizing start with
  | nil => simp [polynomialValue_cons, polynomialValue_nil]
  | cons first rest ih =>
    rw [List.zipIdx_cons, List.foldr_cons, ih, List.cons_append, polynomialValue_cons]

/-! ## Solutions -/

def Solves (value : String → Int) (equations : List Equation) : Prop :=
  ∀ equation ∈ equations, equation.holds value = true

instance (value : String → Int) (equations : List Equation) : Decidable (Solves value equations) :=
  inferInstanceAs (Decidable (∀ _ ∈ _, _))

section Solves
variable {value : String → Int}

theorem solves_append {first second : List Equation} :
    Solves value (first ++ second) ↔ Solves value first ∧ Solves value second :=
  List.forall_mem_append

theorem solves_cons {equation : Equation} {rest : List Equation} :
    Solves value (equation :: rest) ↔ equation.holds value = true ∧ Solves value rest :=
  List.forall_mem_cons

theorem solves_single {equation : Equation} :
    Solves value [equation] ↔ equation.holds value = true :=
  List.forall_mem_singleton

theorem holds_name {target other : String} :
    (Equation.mk target [.name other]).holds value = true ↔ value target = value other := by
  simp [Equation.holds, Summand.eval]

theorem holds_number {target : String} {number : Int} :
    (Equation.mk target [.number number]).holds value = true ↔ value target = number := by
  simp [Equation.holds, Summand.eval]

theorem holds_step {target left right : String} {coefficient : Int} :
    (Equation.mk target [.number coefficient, .product left right]).holds value = true ↔
      value target = coefficient + value left * value right := by
  simp [Equation.holds, Summand.eval]

theorem polynomialTerms_eq (coefficients : List Int) (name : String) :
    polynomialTerms coefficients name = coefficients.zipIdx.map fun pair =>
      if pair.2 = 0 then .number pair.1 else .power pair.1 name pair.2 :=
  rfl

theorem sum_terms (coefficients : List Int) (name : String) (start : Nat) :
    (((coefficients.zipIdx start).map fun pair =>
      if pair.2 = 0 then Summand.number pair.1
      else .power pair.1 name pair.2).map (Summand.eval value)).foldr
        (· + ·) 0 = value name ^ start * polynomialValue coefficients (value name) := by
  induction coefficients generalizing start with
  | nil => simp [polynomialValue_nil]
  | cons first rest ih =>
      have term : (if start = 0 then Summand.number first else .power first name start).eval value =
          first * value name ^ start := by
        by_cases zero : start = 0
        · simp [zero, Summand.eval]
        · rw [if_neg zero]
          rfl
      rw [List.zipIdx_cons, List.map_cons, List.map_cons, List.foldr_cons, ih, polynomialValue_cons,
        term, pow_succ]
      ring

theorem holds_direct {coefficients : List Int} {name : String} :
    (Equation.mk "poly" (polynomialTerms coefficients name)).holds value = true ↔
      value "poly" = polynomialValue coefficients (value name) := by
  rw [Equation.holds, polynomialTerms_eq, sum_terms, pow_zero, one_mul, beq_iff_eq]

end Solves

/-! ## The chain of equations -/

theorem hornerSteps_cons (name above : String) (coefficient : Int) (i : Nat)
    (rest : List (Int × Nat)) :
    hornerSteps name above ((coefficient, i) :: rest) =
      (⟨wireName "t" i, [.number coefficient, .product name above]⟩ ::
        (hornerSteps name (wireName "t" i) rest).1,
        (hornerSteps name (wireName "t" i) rest).2) :=
  rfl

theorem value_hornerSteps {value : String → Int} {name above : String} {steps : List (Int × Nat)}
    (solves : Solves value (hornerSteps name above steps).1) :
    value (hornerSteps name above steps).2 =
      steps.foldl (fun below step => step.1 + value name * below) (value above) := by
  induction steps generalizing above with
  | nil => rfl
  | cons step rest ih =>
      obtain ⟨coefficient, i⟩ := step
      rw [hornerSteps_cons, solves_cons, holds_step] at solves
      rw [hornerSteps_cons, List.foldl_cons, ih solves.2, solves.1]

/-- A chain can be solved whatever it starts from, by values for the names of its own steps. -/
theorem exists_hornerSteps {name above : String} {steps : List (Int × Nat)} (value : String → Int)
    (distinct : (steps.map Prod.snd).Nodup) (apart : ∀ i : Nat, name ≠ wireName "t" i)
    (start : ∀ i ∈ steps.map Prod.snd, above ≠ wireName "t" i) :
    ∃ value' : String → Int,
      (∀ other, (∀ i ∈ steps.map Prod.snd, other ≠ wireName "t" i) → value' other = value other) ∧
      Solves value' (hornerSteps name above steps).1 := by
  induction steps generalizing above value with
  | nil => exact ⟨value, fun _ _ => rfl, List.forall_mem_nil _⟩
  | cons step rest ih =>
      obtain ⟨coefficient, i⟩ := step
      rw [List.map_cons, List.nodup_cons] at distinct
      have fresh : ∀ j ∈ rest.map Prod.snd, wireName "t" i ≠ wireName "t" j := by
        intro j member same
        have index : i = j := by exact_mod_cast wireName_inj.mp same
        exact distinct.1 (index ▸ member)
      obtain ⟨value', kept, solves⟩ :=
        ih (Function.update value (wireName "t" i) (coefficient + value name * value above))
          distinct.2 fresh
      have others (other : String) (away : ∀ j ∈ i :: rest.map Prod.snd, other ≠ wireName "t" j) :
          value' other = value other := by
        rw [kept other fun j member => away j (List.mem_cons_of_mem i member)]
        exact Function.update_of_ne (away i List.mem_cons_self) _ _
      refine ⟨value', others, ?_⟩
      rw [hornerSteps_cons, solves_cons, holds_step]
      refine ⟨?_, solves⟩
      rw [kept _ fresh, Function.update_self, others name fun j _ => apart j, others above start]

/-! ## Both ways -/

def leadName (count : Nat) : String :=
  wireName "c" ((count : Int) - 1)

theorem leadName_succ (count : Nat) : leadName (count + 1) = wireName "c" count := by
  rw [leadName]
  congr 1
  omega

/-- A name that the equations keep for themselves. -/
def Kept (name : String) : Prop :=
  name = "poly" ∨ ∃ i : Nat, name = wireName "t" i ∨ name = wireName "c" i

theorem head_wireName (word : String) {c : Char} {rest : List Char}
    (letters : word.toList = c :: rest) (i : Int) :
    (wireName word i).toList.head? = some c := by
  have shape : wireName word i = word ++ toString i := rfl
  rw [shape, String.toList_append, letters]
  rfl

theorem poly_ne_wireName {word : String} {c : Char} {rest : List Char}
    (letters : word.toList = c :: rest) (other : c ≠ 'p') (i : Int) : "poly" ≠ wireName word i := by
  intro same
  have heads := head_wireName word letters i
  rw [← same] at heads
  exact other (Option.some.inj heads).symm

section Decompose
variable {name : String} {maxDegree : Nat}

theorem decomposePolynomial_short {coefficients : List Int}
    (short : coefficients.length ≤ maxDegree + 1) :
    decomposePolynomial coefficients name maxDegree =
      [⟨"poly", polynomialTerms coefficients name⟩] :=
  if_pos (by exact_mod_cast short)

section Long
variable {front : List Int} (lead : Int) (long : maxDegree < front.length)
include long

/-- The highest coefficient of a long list does not occur in its equations. -/
theorem decomposePolynomial_long :
    decomposePolynomial (front ++ [lead]) name maxDegree =
      (hornerSteps name (leadName (front.length + 1)) front.zipIdx.reverse).1 ++
        [⟨"poly",
          [.name (hornerSteps name (leadName (front.length + 1)) front.zipIdx.reverse).2]⟩] := by
  have steps : (front ++ [lead]).zipIdx.dropLast.reverse = front.zipIdx.reverse := by
    rw [List.zipIdx_append, List.zipIdx_singleton, List.dropLast_concat]
  rw [decomposePolynomial, if_neg (by rw [List.length_append, List.length_singleton]; omega), steps,
    List.length_append, List.length_singleton]
  rfl

theorem poly_of_long {value : String → Int}
    (solves : Solves value (decomposePolynomial (front ++ [lead]) name maxDegree)) :
    value "poly" =
      polynomialValue (front ++ [value (leadName (front.length + 1))]) (value name) := by
  rw [decomposePolynomial_long lead long, solves_append, solves_single, holds_name] at solves
  rw [solves.2, value_hornerSteps solves.1, List.foldl_reverse, foldr_horner]

/-- The name of the highest coefficient may stand for any number. -/
theorem exists_long (own : ¬ Kept name) (x top : Int) :
    ∃ value : String → Int, value name = x ∧ value (leadName (front.length + 1)) = top ∧
      Solves value (decomposePolynomial (front ++ [lead]) name maxDegree) := by
  rw [Kept, not_or, not_exists] at own
  have letters (i : Nat) := not_or.mp (own.2 i)
  have distinct : (front.zipIdx.reverse.map Prod.snd).Nodup := by
    rw [List.map_reverse, List.nodup_reverse, List.zipIdx_map_snd]
    exact List.nodup_range'
  have leadPoly : leadName (front.length + 1) ≠ "poly" := by
    rw [leadName_succ]
    exact (poly_ne_wireName rfl (by decide) _).symm
  have leadStep (i : Nat) : leadName (front.length + 1) ≠ wireName "t" i := by
    rw [leadName_succ]
    exact wireName_ne (by decide) (by decide) (by decide) _ _
  have leadOwn : name ≠ leadName (front.length + 1) := by
    rw [leadName_succ]
    exact (letters front.length).2
  -- The chain leaves alone what is given here to the variable, the highest coefficient and the
  -- polynomial.
  obtain ⟨value, kept, solves⟩ := exists_hornerSteps
    (Function.update (Function.update (fun _ => x) (leadName (front.length + 1)) top) "poly"
      (polynomialValue (front ++ [top]) x)) distinct (fun i => (letters i).1) fun i _ => leadStep i
  have ofName : value name = x := by
    rw [kept name fun i _ => (letters i).1, Function.update_of_ne own.1,
      Function.update_of_ne leadOwn]
  have ofLead : value (leadName (front.length + 1)) = top := by
    rw [kept _ fun i _ => leadStep i, Function.update_of_ne leadPoly, Function.update_self]
  have ofPoly : value "poly" = polynomialValue (front ++ [top]) x := by
    rw [kept _ fun i _ => poly_ne_wireName rfl (by decide) i, Function.update_self]
  refine ⟨value, ofName, ofLead, ?_⟩
  rw [decomposePolynomial_long lead long, solves_append, solves_single, holds_name]
  refine ⟨solves, ?_⟩
  rw [value_hornerSteps solves, List.foldl_reverse, foldr_horner, ofName, ofLead, ofPoly]

end Long

theorem exists_short {coefficients : List Int} (short : coefficients.length ≤ maxDegree + 1)
    (own : ¬ Kept name) (x : Int) :
    ∃ value : String → Int, value name = x ∧
      Solves value (decomposePolynomial coefficients name maxDegree) := by
  have other : name ≠ "poly" := fun same => own (.inl same)
  have ofName : Function.update (fun _ => x) "poly" (polynomialValue coefficients x) name = x :=
    Function.update_of_ne other _ _
  refine ⟨_, ofName, ?_⟩
  rw [decomposePolynomial_short short, solves_single, holds_direct, ofName, Function.update_self]

theorem poly_of_short {coefficients : List Int} (short : coefficients.length ≤ maxDegree + 1)
    {value : String → Int}
    (solves : Solves value (decomposePolynomial coefficients name maxDegree)) :
    value "poly" = polynomialValue coefficients (value name) := by
  rwa [decomposePolynomial_short short, solves_single, holds_direct] at solves

end Decompose

/-- The assignment solves the equations and gives the variable the value `x`. -/
def SolvesAt (equations : List Equation) (name : String) (x : Int) (value : String → Int) : Prop :=
  value name = x ∧ Solves value equations

/-- The equations of a polynomial can be solved at every value of the variable.  Those of a short
list fix the value of the polynomial.  Those of a long list fix it but for the highest coefficient,
which may be anything, so that they give the value of the polynomial in every solution only at zero;
one more equation, for that coefficient, would do. -/
theorem polynomial_but_for_lead {coefficients : List Int} {name : String}
    (filled : coefficients ≠ []) (own : ¬ Kept name) (maxDegree : Nat) (x : Int) :
    (coefficients.length ≤ maxDegree + 1 →
      (∃ value, SolvesAt (decomposePolynomial coefficients name maxDegree) name x value) ∧
      ∀ value, SolvesAt (decomposePolynomial coefficients name maxDegree) name x value →
        value "poly" = polynomialValue coefficients x) ∧
    (maxDegree + 1 < coefficients.length →
      (∀ top, ∃ value, value (leadName coefficients.length) = top ∧
        SolvesAt (decomposePolynomial coefficients name maxDegree) name x value) ∧
      ∀ value, SolvesAt (decomposePolynomial coefficients name maxDegree) name x value →
        value "poly" =
          polynomialValue (coefficients.dropLast ++ [value (leadName coefficients.length)]) x) ∧
    ((∀ value, SolvesAt (decomposePolynomial coefficients name maxDegree) name x value →
      value "poly" = polynomialValue coefficients x) ↔
        coefficients.length ≤ maxDegree + 1 ∨ x = 0) ∧
    ∀ value, SolvesAt (decomposePolynomial coefficients name maxDegree ++
        [⟨leadName coefficients.length, [.number (coefficients.getLast filled)]⟩]) name x value →
      value "poly" = polynomialValue coefficients x := by
  obtain ⟨front, lead, rfl⟩ : ∃ front lead, coefficients = front ++ [lead] :=
    ⟨_, _, (List.dropLast_append_getLast filled).symm⟩
  have length : (front ++ [lead]).length = front.length + 1 := by simp
  rw [List.dropLast_concat, List.getLast_concat, length]
  have short {value : String → Int} (le : front.length + 1 ≤ maxDegree + 1)
      (solved : SolvesAt (decomposePolynomial (front ++ [lead]) name maxDegree) name x value) :
      value "poly" = polynomialValue (front ++ [lead]) x := by
    rw [← solved.1]
    exact poly_of_short (length ▸ le) solved.2
  have long {value : String → Int} (lt : maxDegree < front.length)
      (solved : SolvesAt (decomposePolynomial (front ++ [lead]) name maxDegree) name x value) :
      value "poly" = polynomialValue (front ++ [value (leadName (front.length + 1))]) x := by
    rw [poly_of_long lead lt solved.2, solved.1]
  refine ⟨fun le => ⟨exists_short (length ▸ le) own x, fun value => short le⟩,
    fun lt => ⟨?_, fun value => ?_⟩, ?_, ?_⟩
  · intro top
    obtain ⟨value, ofName, ofLead, solves⟩ :=
      exists_long lead (show maxDegree < front.length by omega) own x top
    exact ⟨value, ofLead, ofName, solves⟩
  · exact long (by omega)
  · constructor
    · intro always
      by_contra neither
      rw [not_or, not_le] at neither
      -- A highest coefficient that is greater by one gives another value.
      obtain ⟨value, ofName, ofLead, solves⟩ :=
        exists_long lead (show maxDegree < front.length by omega) own x (lead + 1)
      have wrong := always value ⟨ofName, solves⟩
      rw [long (by omega) ⟨ofName, solves⟩, ofLead, polynomialValue_concat, polynomialValue_concat,
        add_right_inj] at wrong
      have power : x ^ front.length ≠ 0 := pow_ne_zero _ neither.2
      exact absurd (mul_right_cancel₀ power wrong) (by omega)
    · rintro (le | rfl) value solved
      · exact short le solved
      · by_cases le : front.length + 1 ≤ maxDegree + 1
        · exact short le solved
        · rw [long (by omega) solved, polynomialValue_concat, polynomialValue_concat,
            zero_pow (by omega), mul_zero, mul_zero]
  · rintro value ⟨ofName, solves⟩
    rw [solves_append, solves_single, holds_number] at solves
    by_cases le : front.length + 1 ≤ maxDegree + 1
    · exact short le ⟨ofName, solves.1⟩
    · rw [long (by omega) ⟨ofName, solves.1⟩, solves.2]

theorem not_kept_x : ¬ Kept "x" := by
  rintro (poly | ⟨i, step | top⟩)
  · exact absurd poly (by decide)
  · have heads := head_wireName "t" rfl i
    rw [← step] at heads
    exact absurd heads (by decide)
  · have heads := head_wireName "c" rfl i
    rw [← top] at heads
    exact absurd heads (by decide)

/-- Four coefficients in steps of degree two, at one. -/
theorem polynomial_but_for_lead_four :
    ([0, 0, 0, 1] : List Int) ≠ [] ∧ ¬ Kept "x" ∧
    ∀ value, SolvesAt (decomposePolynomial [0, 0, 0, 1] "x" (2 : Nat)) "x" 1 value →
      value "poly" = polynomialValue ([0, 0, 0] ++ [value (leadName 4)]) 1 :=
  ⟨by decide, not_kept_x,
    ((polynomial_but_for_lead (by decide) not_kept_x 2 1).2.1 (by decide)).2⟩

/-- The cube of one is one, but its equations are also solved by zero. -/
theorem cube_not_fixed :
    ¬ Kept "x" ∧ ∃ value, SolvesAt (decomposePolynomial [0, 0, 0, 1] "x" 2) "x" 1 value ∧
      value "poly" ≠ polynomialValue [0, 0, 0, 1] 1 :=
  ⟨not_kept_x, fun name => if name = "x" then 1 else 0, ⟨rfl, by decide⟩, by decide⟩

end Zkvm.Folding
