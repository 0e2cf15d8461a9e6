import Zkvm.Failure

/-!
# Decomposing products and polynomials

A product of many factors is computed by a tree of gates with two inputs each; a polynomial of high
degree by one equation for each coefficient.  Beside the texts stand the values that gates and
equations give.
-/
set_option autoImplicit false

namespace Zkvm.Folding

structure ProductGate where
  left : String
  right : String
  output : String

namespace ProductGate

def texts (gate : ProductGate) : List String :=
  [gate.left, gate.right, gate.output]

/-- The values of names after the gates were evaluated in order. -/
def evaluate {α : Type} (mul : α → α → α) (value : String → α) : List ProductGate → String → α
  | [] => value
  | gate :: rest =>
    let product := mul (value gate.left) (value gate.right)
    evaluate mul (fun name => if name = gate.output then product else value name) rest

end ProductGate

/-- One level of the tree: neighbours are multiplied, a last one without a neighbour goes on as it
is.  The outputs are numbered from `index`. -/
def pairUp (level index : Nat) : List String → List ProductGate × List String
  | left :: right :: rest =>
    let output := s!"t_{level}_{index}"
    let (gates, outputs) := pairUp level (index + 1) rest
    (⟨left, right, output⟩ :: gates, output :: outputs)
  | last => ([], last)

theorem pairUp_length (level index : Nat) (names : List String) :
    (pairUp level index names).2.length = (names.length + 1) / 2 := by
  fun_induction pairUp level index names with
  | case1 index left right rest output gates outputs step ih =>
    rw [step] at ih
    simp only [List.length_cons] at ih ⊢
    omega
  | case2 index last h =>
    match last, h with
    | [], _ => rfl
    | [_], _ => simp
    | a :: b :: c, h => exact absurd rfl (h a b c)

def productTree (level : Nat) (names : List String) : List ProductGate :=
  if names.length ≤ 1 then []
  else
    let next := pairUp level 0 names
    next.1 ++ productTree (level + 1) next.2
termination_by names.length
decreasing_by
  simp only [pairUp_length]
  omega

/-- The gates for the product of the first `degree` inputs.  Two inputs need one gate. -/
def decomposeProduct (inputs : List String) (degree : Int) : Except Failure (List ProductGate) :=
  if degree ≤ 2 then
    match inputs with
    | first :: second :: _ => .ok [⟨first, second, "mul_out"⟩]
    | _ => .error .outOfRange
  else .ok (productTree 0 (inputs.take degree.toNat))

inductive Summand where
  | number (value : Int)
  | name (name : String)
  /-- A coefficient times a power of a name. -/
  | power (coefficient : Int) (base : String) (exponent : Nat)
  | product (left right : String)

namespace Summand

def text : Summand → String
  | .number value => s!"{value}"
  | .name n => n
  | .power coefficient base exponent => s!"{coefficient} * {base}^{exponent}"
  | .product left right => s!"{left} * {right}"

def eval (value : String → Int) : Summand → Int
  | .number n => n
  | .name n => value n
  | .power coefficient base exponent => coefficient * Int.pow (value base) exponent
  | .product left right => value left * value right

/-- The numbers that stand in its text. -/
def numbers : Summand → List Int
  | .number value => [value]
  | .power coefficient _ _ => [coefficient]
  | .name _ | .product _ _ => []

end Summand

structure Equation where
  target : String
  summands : List Summand

namespace Equation

def text (equation : Equation) : String :=
  s!"{equation.target} = " ++ " + ".intercalate (equation.summands.map Summand.text)

def holds (value : String → Int) (equation : Equation) : Bool :=
  value equation.target == (equation.summands.map (Summand.eval value)).foldr (· + ·) 0

end Equation

def polynomialTerms (coefficients : List Int) (variable' : String) : List Summand :=
  coefficients.zipIdx.map fun (coefficient, i) =>
    if i = 0 then .number coefficient else .power coefficient variable' i

/-- The equations from coefficient `i` downwards, where the one above has the result `above`; the
last of them gives `t0`. -/
def hornerSteps (variable' above : String) : List (Int × Nat) → List Equation × String
  | [] => ([], above)
  | (coefficient, i) :: rest =>
    let result := s!"t{i}"
    let (equations, last) := hornerSteps variable' result rest
    (⟨result, [.number coefficient, .product variable' above]⟩ :: equations, last)

/-- The value of a polynomial in one equation, or one for each coefficient if its degree is too
high. -/
def decomposePolynomial (coefficients : List Int) (variable' : String) (maxDegree : Int) :
    List Equation :=
  if (coefficients.length : Int) ≤ maxDegree +
    1 then [⟨"poly", polynomialTerms coefficients variable'⟩]
  else
    let (equations, last) := hornerSteps variable' s!"c{(coefficients.length : Int) - 1}"
      coefficients.zipIdx.dropLast.reverse
    equations ++ [⟨"poly", [.name last]⟩]

def polynomialTexts (coefficients : List Int) (variable' : String) (maxDegree : Int) :
    Except Failure (List String) := do
  let equations := decomposePolynomial coefficients variable' maxDegree
  writeNumbers (equations.flatMap fun equation => equation.summands.flatMap Summand.numbers)
  pure (equations.map Equation.text)

end Zkvm.Folding
