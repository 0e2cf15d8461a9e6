import Zkvm.Proofs.Circuit.Parts
import Zkvm.Proofs.Formula.Spelling

/-!
# Lines that can be read

Whatever a constraint is lowered to is written in brackets, so that it is read as the clause it is,
if the names of the variables are read as names.  A module then has only lines that can be read if
the formulas it was given can.
-/
set_option autoImplicit false

namespace Zkvm

open Formula (IsName isWordSign Readable places laterPlaces)

/-! ## Numbered names -/

namespace Formula

theorem isWordSign_of_isDigit {c : Char} (digit : c.isDigit = true) : isWordSign c = true := by
  have same : Circuit.isDigit c = true := by
    simp only [Char.isDigit, Circuit.isDigit, Bool.and_eq_true, decide_eq_true_eq] at digit ⊢
    exact digit
  rw [isWordSign, same, Bool.or_true, Bool.true_or]

theorem IsName.extend {name more : String} (named : IsName name)
    (all : ∀ c ∈ more.toList, isWordSign c = true) :
    IsName (name ++ more) where
  begins := by
    obtain ⟨c, rest, shape⟩ : ∃ c rest, name.toList = c :: rest := by
      have begins := named.begins
      cases letters : name.toList with
      | nil =>
          rw [letters] at begins
          cases begins
      | cons c rest => exact ⟨c, rest, rfl⟩
    have begins := named.begins
    rw [shape] at begins
    rw [String.toList_append, shape]
    exact begins
  word c member := by
    rw [String.toList_append, List.mem_append] at member
    exact member.elim (named.word c) (all c)

theorem IsName.append {name digits : String} (named : IsName name)
    (all : ∀ c ∈ digits.toList, c.isDigit = true) :
    IsName (name ++ digits) :=
  named.extend fun c member => isWordSign_of_isDigit (all c member)

theorem IsName.wire {name : String} (named : IsName name) (i : Nat) :
    IsName s!"{name}{(i : Int)}" :=
  named.append fun _ => Text.isDigit_of_mem_toString

theorem IsName.cell {name : String} (named : IsName name) (n i : Nat) :
    IsName (name ++ toString n ++ "_" ++ toString i) := by
  have mark : ∀ c ∈ "_".toList, isWordSign c = true := List.forall_mem_singleton.mpr rfl
  have marked : IsName (name ++ toString n ++ "_") :=
    (named.append fun _ => Text.isDigit_of_mem_toString).extend mark
  exact marked.append fun _ => Text.isDigit_of_mem_toString

end Formula

namespace Term

theorem bracketed_wire {name : String} (named : IsName name) (i : Nat) : (wire name i).Bracketed :=
  .var (named.wire i)

section Groups
variable {a b c : Term}

theorem Bracketed.pair {connective : Gate} (signed : connective.sign?.isSome = true)
    (left : a.Bracketed) (right : b.Bracketed) : (Term.group (.gate connective a b)).Bracketed :=
  .group signed left (List.forall_mem_singleton.mpr right)

theorem Bracketed.flipped (inner : a.Bracketed) : a.flipped.Bracketed :=
  .pair rfl inner (.bit true)

theorem Bracketed.sum (first : a.Bracketed) (second : b.Bracketed) (third : c.Bracketed) :
    (Term.sum a b c).Bracketed :=
  .group rfl first (List.forall_mem_cons.mpr ⟨second, List.forall_mem_singleton.mpr third⟩)

theorem Bracketed.carry (first : a.Bracketed) (second : b.Bracketed) (third : c.Bracketed) :
    (Term.carry a b c).Bracketed :=
  .pair rfl (.pair rfl first second) (.pair rfl (.pair rfl first second) third)

theorem Bracketed.borrowCarry (first : a.Bracketed) (second : b.Bracketed) (third : c.Bracketed) :
    (Formula.borrowCarry a b c).Bracketed :=
  .pair rfl (.pair rfl first (.pair rfl second third)) (.pair rfl (.pair rfl first second) third)

end Groups

end Term

theorem Clause.bracketed_wire {name : String} {value : Term} (named : IsName name) (i : Nat)
    (bracketed : value.Bracketed) : (Clause.wire name i value).Bracketed :=
  ⟨named.wire i, bracketed⟩

/-! ## Chains -/

namespace Formula

theorem forall_mem_pair {first second : Clause} (here : first.Bracketed)
    (there : second.Bracketed) :
    ∀ clause ∈ [first, second], clause.Bracketed :=
  List.forall_mem_cons.mpr ⟨here, List.forall_mem_singleton.mpr there⟩

theorem forall_mem_laterPlaces {property : Nat → Prop} (each : ∀ i, property (i + 1))
    (width : Int) :
    ∀ i ∈ laterPlaces width, property i := by
  rintro _ member
  obtain ⟨i, _, rfl⟩ := List.mem_map.mp member
  exact each i

/-- The carry of the place before. -/
theorem bracketed_carryBefore (i : Nat) : (Term.wire "c" ((i + 1 : Nat) - 1)).Bracketed := by
  rw [show ((i + 1 : Nat) - 1 : Int) = i by omega]
  exact Term.bracketed_wire (by decide) i

section Chains
variable {a b : String} {width : Int}

theorem bracketed_additionChain (first : IsName a) (second : IsName b) :
    ∀ clause ∈ additionChain a b width, clause.Bracketed := by
  have sumName : IsName "s" := by decide
  have carryName : IsName "c" := by decide
  have left (i : Nat) := Term.bracketed_wire first i
  have right (i : Nat) := Term.bracketed_wire second i
  refine List.forall_mem_append.mpr
    ⟨?_, List.forall_mem_flatMap.mpr (forall_mem_laterPlaces (fun i => ?_) width)⟩
  · exact forall_mem_pair (Clause.bracketed_wire sumName 0 (.pair rfl (left 0) (right 0)))
      (Clause.bracketed_wire carryName 0 (.pair rfl (left 0) (right 0)))
  · have before := bracketed_carryBefore i
    exact forall_mem_pair (Clause.bracketed_wire sumName _ (.sum (left _) (right _) before))
      (Clause.bracketed_wire carryName _ (.carry (left _) (right _) before))

theorem bracketed_complement (named : IsName b) : ∀ clause ∈ complement b width, clause.Bracketed :=
  List.forall_mem_map.mpr fun i _ =>
    Clause.bracketed_wire (by decide) i (Term.bracketed_wire named i).flipped

theorem bracketed_subtractionChain (named : IsName a) :
    ∀ clause ∈ subtractionChain a width, clause.Bracketed := by
  have sumName : IsName "s" := by decide
  have carryName : IsName "c" := by decide
  have left (i : Nat) := Term.bracketed_wire named i
  have right (i : Nat) := Term.bracketed_wire (by decide : IsName "nb") i
  refine List.forall_mem_append.mpr
    ⟨?_, List.forall_mem_flatMap.mpr (forall_mem_laterPlaces (fun i => ?_) width)⟩
  · exact forall_mem_pair (Clause.bracketed_wire sumName 0 (.sum (left 0) (right 0) (.bit true)))
      (Clause.bracketed_wire carryName 0 (.borrowCarry (left 0) (right 0) (.bit true)))
  · have before := bracketed_carryBefore i
    exact forall_mem_pair (Clause.bracketed_wire sumName _ (.sum (left _) (right _) before))
      (Clause.bracketed_wire carryName _ (.borrowCarry (left _) (right _) before))

theorem bracketed_partialProducts (first : IsName a) (second : IsName b) :
    ∀ clause ∈ partialProducts a b width, clause.Bracketed := by
  refine List.forall_mem_flatMap.mpr fun j _ => List.forall_mem_map.mpr fun i _ => ⟨?_, ?_⟩
  · have column : IsName ("p" ++ toString j) :=
      .append (by decide) fun _ => Text.isDigit_of_mem_toString
    exact column.append fun _ => Text.isDigit_of_mem_toString
  · exact .pair rfl (Term.bracketed_wire first i) (Term.bracketed_wire second j)

end Chains

end Formula

/-! ## Lowered constraints -/

namespace Circuit

section Lowered
variable {a b c : Variable}

theorem bracketed_assign {target row : String} {width : Int} (targetName : IsName target)
    (rowName : IsName row) :
    ∀ clause ∈ assign target row width, clause.Bracketed :=
  List.forall_mem_map.mpr fun i _ =>
    Clause.bracketed_wire targetName i (Term.bracketed_wire rowName i)

theorem bracketed_addition (first : IsName a.name) (second : IsName b.name)
    (third : IsName c.name) :
    ∀ clause ∈ addition a b c, clause.Bracketed :=
  List.forall_mem_append.mpr
    ⟨Formula.bracketed_additionChain first second, bracketed_assign third (by decide)⟩

theorem bracketed_subtraction (first : IsName a.name) (second : IsName b.name)
    (third : IsName c.name) :
    ∀ clause ∈ subtraction a b c, clause.Bracketed :=
  List.forall_mem_append.mpr ⟨List.forall_mem_append.mpr
    ⟨Formula.bracketed_complement second, Formula.bracketed_subtractionChain first⟩,
    bracketed_assign third (by decide)⟩

theorem bracketed_columns (width : Int) : ∀ clause ∈ columns width, clause.Bracketed := by
  have product {name : String} (named : IsName name) : (Term.var name).Bracketed := .var named
  refine List.forall_mem_append.mpr ⟨List.forall_mem_append.mpr ⟨?_, ?_⟩, ?_⟩
  · exact List.forall_mem_singleton.mpr ⟨by decide, product (by decide)⟩
  · split
    · exact List.forall_mem_singleton.mpr
        ⟨by decide, .pair rfl (product (by decide)) (product (by decide))⟩
    · exact List.forall_mem_nil _
  · split
    · have later : ∀ term ∈ [Term.var "p11", .var "p20", .var "c10"], term.Bracketed := by
        simp only [List.forall_mem_cons, List.not_mem_nil, false_implies, implies_true, and_true]
        exact ⟨product (by decide), product (by decide), product (by decide)⟩
      have sum :
          (Term.group
            (Term.joined .xor [.var "p02", .var "p11", .var "p20", .var "c10"])).Bracketed :=
        .group rfl (product (by decide)) later
      exact Formula.forall_mem_pair
        ⟨by decide, .pair rfl (product (by decide)) (product (by decide))⟩
        ⟨by decide, sum⟩
    · exact List.forall_mem_nil _

theorem bracketed_multiplication (first : IsName a.name) (second : IsName b.name)
    (third : IsName c.name) :
    ∀ clause ∈ multiplication a b c, clause.Bracketed := by
  refine List.forall_mem_append.mpr ⟨List.forall_mem_append.mpr ⟨List.forall_mem_append.mpr
    ⟨Formula.bracketed_partialProducts first second, bracketed_columns a.width⟩,
    bracketed_assign third (by decide)⟩, ?_⟩
  exact List.forall_mem_map.mpr fun i _ => ⟨third.wire i, .bit false⟩

end Lowered

theorem bracketed_loadClauses : ∀ clause ∈ loadClauses, clause.Bracketed := by
  have first : (Term.var "addr0").Bracketed := .var (by decide)
  have second : (Term.var "addr1").Bracketed := .var (by decide)
  have cell (bit : Nat) (i : Nat) :
      (Term.group (Term.wire "sel" i &&& .var s!"m{i}{bit}")).Bracketed := by
    refine .pair rfl (Term.bracketed_wire (by decide) i) (.var ?_)
    have row : IsName ("m" ++ toString i) :=
      .append (by decide) fun _ => Text.isDigit_of_mem_toString
    exact row.append fun _ => Text.isDigit_of_mem_toString
  have value (bit : Nat) : (Term.group (Term.joined .or ((List.range 4).map fun (i : Nat) =>
      .group (Term.wire "sel" i &&& .var s!"m{i}{bit}")))).Bracketed :=
    .group rfl (cell bit 0) (List.forall_mem_map.mpr fun i _ => cell bit i : ∀ term ∈
      [1, 2, 3].map _, _)
  unfold loadClauses
  simp only [List.forall_mem_cons, List.not_mem_nil, false_implies, implies_true, and_true]
  refine ⟨⟨by decide, ?_⟩, ⟨by decide, ?_⟩, ⟨by decide, ?_⟩, ⟨by decide, ?_⟩, ⟨by decide, value 0⟩,
    ⟨by decide, value 1⟩⟩
  · exact .pair rfl first.flipped second.flipped
  · exact .pair rfl first second.flipped
  · exact .pair rfl first.flipped second
  · exact .pair rfl first second

/-- The names of the variables of an arithmetic constraint are names, and a formula that is given
can be read. -/
def Constraint.Legible (constraint : Constraint) : Prop :=
  match constraint.kind with
  | .arithmetic => ∀ v ∈ constraint.vars, IsName v.name
  | .boolean => Readable constraint.expression
  | _ => True

theorem bracketed_ofThree {operation : String}
    {relation : Variable → Variable → Variable → List Clause}
    (each : ∀ {a b c : Variable}, IsName a.name → IsName b.name → IsName c.name →
      ∀ clause ∈ relation a b c, clause.Bracketed)
    {vars : List Variable} (named : ∀ v ∈ vars, IsName v.name) {clauses : List Clause}
    (lowered : ofThree operation relation vars = .ok clauses) :
    ∀ clause ∈ clauses, clause.Bracketed := by
  unfold ofThree at lowered
  split at lowered
  · next a b c =>
      cases lowered
      simp only [List.forall_mem_cons] at named
      exact each named.1 named.2.1 named.2.2.1
  · cases lowered

theorem bracketed_lowerArithmetic {constraint : Constraint}
    (named : ∀ v ∈ constraint.vars, IsName v.name) {clauses : List Clause}
    (lowered : lowerArithmetic constraint = .ok clauses) :
    ∀ clause ∈ clauses, clause.Bracketed := by
  unfold lowerArithmetic at lowered
  simp only at lowered
  split at lowered
  · exact bracketed_ofThree bracketed_addition named lowered
  · split at lowered
    · exact bracketed_ofThree bracketed_multiplication named lowered
    · split at lowered
      · exact bracketed_ofThree bracketed_subtraction named lowered
      · cases lowered

theorem bracketed_lowerMemory {constraint : Constraint} {clauses : List Clause}
    (lowered : lowerMemory constraint = .ok clauses) : ∀ clause ∈ clauses, clause.Bracketed := by
  unfold lowerMemory at lowered
  simp only at lowered
  split at lowered
  · cases lowered
    exact bracketed_loadClauses
  · split at lowered
    · cases lowered
      exact List.forall_mem_singleton.mpr ⟨by decide, .bit true⟩
    · cases lowered

/-- A line that can be read, as the clause it is if it is one. -/
def Line.Legible : Line → Prop
  | .clause made => made.Bracketed
  | .given text => Readable text

theorem Line.Legible.readable {line : Line} (legible : line.Legible) : Readable line.text := by
  cases line with
  | clause made =>
      obtain ⟨term, done, _⟩ := Formula.read_clause legible
      exact ⟨term, done⟩
  | given text => exact legible

theorem legible_clauses {outcome : Except Failure (List Clause)} {lines : List Line}
    (lowered : outcome.map (·.map Line.clause) = .ok lines)
    (bracketed : ∀ clauses, outcome = .ok clauses → ∀ clause ∈ clauses, clause.Bracketed) :
    ∀ line ∈ lines, line.Legible := by
  cases outcome with
  | error failure => cases lowered
  | ok clauses =>
      cases lowered
      exact List.forall_mem_map.mpr (bracketed clauses rfl)

theorem legible_lower {constraint : Constraint} (legible : constraint.Legible) {lines : List Line}
    (lowered : lower constraint = .ok lines) : ∀ line ∈ lines, line.Legible := by
  unfold lower at lowered
  unfold Constraint.Legible at legible
  cases kind : constraint.kind with
  | arithmetic =>
      simp only [kind] at lowered legible
      exact legible_clauses lowered fun _ done => bracketed_lowerArithmetic legible done
  | boolean =>
      simp only [kind] at lowered legible
      cases lowered
      exact List.forall_mem_singleton.mpr legible
  | memory =>
      simp only [kind] at lowered
      exact legible_clauses lowered fun _ done => bracketed_lowerMemory done
  | control | folding =>
      simp only [kind] at lowered
      cases lowered

theorem legible_lowerAll {constraints : List Constraint}
    (legible : ∀ constraint ∈ constraints, constraint.Legible) {lines : List Line}
    (lowered : lowerAll constraints = .ok lines) : ∀ line ∈ lines, line.Legible := by
  induction constraints generalizing lines with
  | nil =>
      cases lowered
      exact List.forall_mem_nil _
  | cons first rest ih =>
      rw [List.forall_mem_cons] at legible
      rw [lowerAll] at lowered
      cases here : lower first with
      | error failure =>
          rw [here] at lowered
          cases lowered
      | ok made =>
          cases later : lowerAll rest with
          | error failure =>
              rw [here, later] at lowered
              cases lowered
          | ok more =>
              rw [here, later] at lowered
              cases lowered
              exact List.forall_mem_append.mpr ⟨legible_lower legible.1 here, ih legible.2 later⟩

/-- A module whose inputs have names, and whose constraints are made of names and formulas. -/
structure Module.Legible (m : Module) : Prop where
  inputs : ∀ v ∈ m.vars, v.isInput = true → IsName v.name
  constraints : ∀ constraint ∈ m.constraints, constraint.Legible

section Legible
variable {m : Module} {lines : List Line}

/-- All lines of a module can be read, and so can those that stand in every file. -/
theorem Module.Legible.readable (legible : m.Legible)
    (lowered : lowerAll m.constraints = .ok lines) :
    ∀ line ∈ commonLines m ++ lines.map Line.text, Readable line := by
  refine List.forall_mem_append.mpr ⟨List.forall_mem_append.mpr ⟨?_, by decide⟩, ?_⟩
  · refine List.forall_mem_flatMap.mpr fun v member => List.forall_mem_map.mpr fun i _ => ?_
    obtain ⟨inside, input⟩ := List.mem_filter.mp member
    exact ⟨_, Formula.read_define ((legible.inputs v inside input).wire i) (.bit _)⟩
  · refine List.forall_mem_map.mpr fun line member => ?_
    exact (legible_lowerAll legible.constraints lowered line member).readable

theorem Module.Legible.holdsText_clause (legible : m.Legible)
    (lowered : lowerAll m.constraints = .ok lines) {clause : Clause}
    (member : .clause clause ∈ lines) (value : Assignment) :
    Formula.holdsText value clause.text = clause.holds value := by
  obtain ⟨term, done, meaning⟩ :=
    Formula.read_clause (legible_lowerAll legible.constraints lowered _ member)
  rw [Formula.holdsText_eq done, meaning]

end Legible

end Circuit

end Zkvm
