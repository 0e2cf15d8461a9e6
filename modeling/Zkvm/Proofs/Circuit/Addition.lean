import Zkvm.Circuit.Compiler
import Zkvm.Proofs.Formula.Row

/-!
# What a module of additions is lowered to

Every modular addition of a module becomes a chain of adders that writes its sums to the names `s0,
s1, ...` and its carries to `c0, c1, ...`, whatever the module's variables are called and whatever
its other additions are.  So the lowered module can be satisfied exactly when all additions hold
and, besides, no scratch name is needed with two different values: neither by two additions, nor by
an addition and a declared bit that happens to have the name.
-/
set_option autoImplicit false

namespace Zkvm.Circuit

open Formula (wireName row holds places)

/-! ## Modules of additions -/

def Variable.bitNames (v : Variable) : List String :=
  (places v.width).map fun (i : Nat) => wireName v.name i

def Module.bitNames (m : Module) : List String :=
  m.vars.flatMap Variable.bitNames

theorem Module.mem_bitNames {m : Module} {name : String} :
    name ∈ m.bitNames ↔ ∃ v ∈ m.vars, ∃ i < v.width.toNat, wireName v.name i = name := by
  simp only [bitNames, Variable.bitNames, places, List.mem_flatMap, List.mem_map, List.mem_range]

/-- An arithmetic constraint that is read as a sum modulo a power of two, of three variables of one
positive width. -/
structure IsAddition (constraint : Constraint) (a b c : Variable) : Prop where
  arithmetic : constraint.kind = .arithmetic
  plus : Text.mentions constraint.expression "+" = true
  modulo : Text.mentions constraint.expression "mod" = true
  operands : constraint.vars = [a, b, c]
  secondWidth : b.width = a.width
  thirdWidth : c.width = a.width
  positive : 1 ≤ a.width

def Module.AddsOnly (m : Module) : Prop :=
  ∀ constraint ∈ m.constraints, ∃ a b c,
    IsAddition constraint a b c ∧ a ∈ m.vars ∧ b ∈ m.vars ∧ c ∈ m.vars

theorem Module.AddsOnly.isAddition {m : Module} (adds : m.AddsOnly) :
    ∀ constraint ∈ m.constraints, ∃ a b c, IsAddition constraint a b c := by
  intro constraint member
  obtain ⟨a, b, c, isAddition, _⟩ := adds constraint member
  exact ⟨a, b, c, isAddition⟩

/-- Under an assignment the third variable of a constraint is the sum of the first two, modulo two
to the width. -/
def Constraint.Holds (value : Assignment) (constraint : Constraint) : Prop :=
  ∀ a b c, constraint.vars = [a, b, c] →
    (row value c.name a.width.toNat).toNat =
      ((row value a.name a.width.toNat).toNat + (row value b.name a.width.toNat).toNat) % 2 ^
        a.width.toNat

/-- Some values of the other names make all clauses true, where the values of some names are
given. -/
def Satisfiable (given : List String) (value : Assignment) (clauses : List Clause) : Prop :=
  ∃ full : Assignment, (∀ name ∈ given, full name = value name) ∧ holds full clauses = true

/-! ## Scratch names -/

/-- The values that the chain of an addition needs in its scratch names. -/
inductive Needs {width : Nat} (x y : BitVec width) : String → Bool → Prop where
  | sum (i : Nat) (inside : i < width) : Needs x y (wireName "s" i) ((x + y).getLsbD i)
  | carry (i : Nat) (inside : i < width) :
      Needs x y (wireName "c" i) (BitVec.carry (i + 1) x y false)

def Constraint.Needs (value : Assignment) (constraint : Constraint) (name : String)
    (bit : Bool) : Prop :=
  ∃ a b c, constraint.vars = [a, b, c] ∧
    Circuit.Needs (row value a.name a.width.toNat) (row value b.name a.width.toNat) name bit

/-- No scratch name is needed with two different values. -/
structure Module.Undisputed (m : Module) (value : Assignment) : Prop where
  shared : ∀ first ∈ m.constraints, ∀ second ∈ m.constraints, ∀ name u v,
    first.Needs value name u → second.Needs value name v → u = v
  captured : ∀ constraint ∈ m.constraints, ∀ name ∈ m.bitNames, ∀ u,
    constraint.Needs value name u → value name = u

theorem holds_additionChain_iff_needs (value : Assignment) (a b : String) {width : Int}
    (positive : 1 ≤ width) :
    holds value (Formula.additionChain a b width) = true ↔
      ∀ name bit, Needs (row value a width.toNat) (row value b width.toNat) name bit →
        value name = bit := by
  rw [Formula.holds_additionChain value a b positive]
  constructor
  · intro places name bit needs
    cases needs with
    | sum i inside => exact (places i inside).1
    | carry i inside => exact (places i inside).2
  · intro needs i inside
    exact ⟨needs _ _ (.sum i inside), needs _ _ (.carry i inside)⟩

theorem holds_assign (value : Assignment) (target source : String) (width : Int) :
    holds value (assign target source width) = true ↔
      ∀ i < width.toNat, value (wireName target i) = value (wireName source i) := by
  rw [assign, Formula.holds_map, places]
  constructor
  · intro clauses i inside
    exact (Formula.holds_wire ..).mp (clauses i (List.mem_range.mpr inside))
  · intro same i member
    exact (Formula.holds_wire ..).mpr (same i (List.mem_range.mp member))

/-- The clauses of an addition hold exactly when the scratch names are as the chain needs them and
the third row is the sum of the first two. -/
theorem holds_addition (value : Assignment) {a b c : Variable} (positive : 1 ≤ a.width) :
    holds value (addition a b c) = true ↔
      (∀ name bit,
        Needs (row value a.name a.width.toNat) (row value b.name a.width.toNat) name bit →
        value name = bit) ∧
      row value c.name a.width.toNat =
        row value a.name a.width.toNat + row value b.name a.width.toNat := by
  rw [addition, Formula.holds_append, Bool.and_eq_true,
    holds_additionChain_iff_needs value _ _ positive, holds_assign]
  refine and_congr_right fun needs => ?_
  constructor
  · intro same
    apply BitVec.eq_of_getLsbD_eq
    intro i inside
    rw [Formula.getLsbD_row value c.name inside, same i inside]
    exact needs _ _ (.sum i inside)
  · intro rows i inside
    rw [← Formula.getLsbD_row value c.name inside, rows]
    exact (needs _ _ (.sum i inside)).symm

section Operands
variable {constraint : Constraint} {a b c : Variable} (adds : IsAddition constraint a b c)
include adds

theorem IsAddition.forall_operands {property : Variable → Variable → Variable → Prop} :
    (∀ a' b' c', constraint.vars = [a', b', c'] → property a' b' c') ↔ property a b c := by
  constructor
  · intro every
    exact every a b c adds.operands
  · intro holds a' b' c' operands
    rw [adds.operands] at operands
    cases operands
    exact holds

theorem IsAddition.holds_iff (value : Assignment) :
    constraint.Holds value ↔
      row value c.name a.width.toNat =
        row value a.name a.width.toNat + row value b.name a.width.toNat := by
  rw [Constraint.Holds, adds.forall_operands, ← BitVec.toNat_inj, BitVec.toNat_add]

theorem IsAddition.needs_iff (value : Assignment) (name : String) (bit : Bool) :
    constraint.Needs value name bit ↔
      Needs (row value a.name a.width.toNat) (row value b.name a.width.toNat) name bit := by
  constructor
  · rintro ⟨a', b', c', operands, need⟩
    rw [adds.operands] at operands
    cases operands
    exact need
  · intro need
    exact ⟨a, b, c, adds.operands, need⟩

end Operands

/-! ## Lowering -/

theorem lower_addition {constraint : Constraint} {a b c : Variable}
    (adds : IsAddition constraint a b c) :
    lower constraint = .ok ((addition a b c).map Line.clause) := by
  simp only [lower, adds.arithmetic, lowerArithmetic, adds.plus, adds.modulo, Bool.and_self,
    if_true, lowerAddition, ofThree, adds.operands]
  rfl

theorem lowerAll_additions {constraints : List Constraint}
    (adds : ∀ constraint ∈ constraints, ∃ a b c, IsAddition constraint a b c) :
    ∃ clauses, lowerAll constraints = .ok (clauses.map Line.clause) ∧
      ∀ value, holds value clauses = true ↔
        ∀ constraint ∈ constraints, ∀ a b c, constraint.vars = [a, b, c] →
          holds value (addition a b c) = true := by
  induction constraints with
  | nil => exact ⟨[], rfl, fun value => by simp [holds]⟩
  | cons first rest ih =>
      obtain ⟨a, b, c, addsFirst⟩ := adds first (List.mem_cons_self ..)
      obtain ⟨clauses, lowered, meaning⟩ :=
        ih fun constraint member => adds constraint (List.mem_cons_of_mem _ member)
      refine ⟨addition a b c ++ clauses, ?_, ?_⟩
      · simp only [lowerAll, lower_addition addsFirst, lowered, Except.map, List.map_append]
      · intro value
        rw [Formula.holds_append, Bool.and_eq_true, meaning, List.forall_mem_cons,
          addsFirst.forall_operands]

theorem row_of_given {m : Module} {v : Variable} {width : Int} {full value : Assignment}
    (declared : v ∈ m.vars) (sameWidth : v.width = width)
    (agrees : ∀ name ∈ m.bitNames, full name = value name) :
    row full v.name width.toNat = row value v.name width.toNat := by
  apply Formula.row_congr
  intro i inside
  rw [← sameWidth] at inside
  exact agrees _ (Module.mem_bitNames.mpr ⟨v, declared, i, inside, rfl⟩)

/-- The clauses of a module of additions hold under an extension of an assignment exactly when the
module's additions hold and the extension has in every scratch name what the additions need. -/
theorem holds_extension_iff {m : Module} (adds : m.AddsOnly) {full value : Assignment}
    (agrees : ∀ name ∈ m.bitNames, full name = value name) :
    (∀ constraint ∈ m.constraints, ∀ a b c, constraint.vars = [a, b, c] →
        holds full (addition a b c) = true) ↔
      (∀ constraint ∈ m.constraints, constraint.Holds value) ∧
      ∀ constraint ∈ m.constraints, ∀ name bit,
        constraint.Needs value name bit → full name = bit := by
  rw [← forall₂_and]
  refine forall₂_congr fun constraint member => ?_
  obtain ⟨a, b, c, isAddition, declaredA, declaredB, declaredC⟩ := adds constraint member
  have rowA := row_of_given declaredA rfl agrees
  have rowB := row_of_given declaredB isAddition.secondWidth agrees
  have rowC := row_of_given declaredC isAddition.thirdWidth agrees
  rw [isAddition.forall_operands, holds_addition full isAddition.positive, rowA, rowB, rowC,
    isAddition.holds_iff]
  simp only [isAddition.needs_iff]
  exact and_comm

/-- A module of additions, lowered to clauses with this meaning, can be satisfied exactly when its
additions hold and no scratch name is disputed. -/
theorem satisfiable_iff {m : Module} (adds : m.AddsOnly) {clauses : List Clause}
    (meaning : ∀ value, holds value clauses = true ↔
      ∀ constraint ∈ m.constraints, ∀ a b c, constraint.vars = [a, b, c] →
        holds value (addition a b c) = true) (value : Assignment) :
    Satisfiable m.bitNames value clauses ↔
      (∀ constraint ∈ m.constraints, constraint.Holds value) ∧ m.Undisputed value := by
  constructor
  · rintro ⟨full, agrees, clausesHold⟩
    obtain ⟨additionsHold, needs⟩ :=
      (holds_extension_iff adds agrees).mp ((meaning full).mp clausesHold)
    refine ⟨additionsHold, ?_, ?_⟩
    · intro first inFirst second inSecond name u v needU needV
      exact (needs first inFirst name u needU).symm.trans (needs second inSecond name v needV)
    · intro constraint member name declared u need
      exact (agrees name declared).symm.trans (needs constraint member name u need)
  · rintro ⟨additionsHold, undisputed⟩
    classical
    -- declared bits keep their values, a scratch name gets what some addition needs in it
    let full : Assignment := fun name =>
      if name ∈ m.bitNames then value name
      else decide (∃ constraint ∈ m.constraints, constraint.Needs value name true)
    have agrees : ∀ name ∈ m.bitNames, full name = value name :=
      fun name declared => if_pos declared
    refine ⟨full, agrees,
      (meaning full).mpr ((holds_extension_iff adds agrees).mpr ⟨additionsHold, ?_⟩)⟩
    intro constraint member name bit need
    by_cases declared : name ∈ m.bitNames
    · rw [agrees name declared]
      exact undisputed.captured constraint member name declared bit need
    · have chosen : full name = decide (∃ other ∈ m.constraints, other.Needs value name true) :=
        if_neg declared
      rw [chosen]
      cases bit with
      | true => exact decide_eq_true ⟨constraint, member, need⟩
      | false =>
          apply decide_eq_false
          rintro ⟨other, inOther, needTrue⟩
          cases undisputed.shared constraint member other inOther name false true need needTrue

/-! ## Modules that keep clear of the scratch names -/

/-- No declared bit has a scratch name, and all additions have the same operands (as when there is
only one). -/
structure Module.Separate (m : Module) : Prop where
  uncaptured : ∀ name ∈ m.bitNames, ∀ i : Nat, name ≠ wireName "s" i ∧ name ≠ wireName "c" i
  sameOperands : ∀ first ∈ m.constraints, ∀ second ∈ m.constraints,
    first.vars.take 2 = second.vars.take 2

theorem Needs.unique {width : Nat} {x y : BitVec width} {name : String} {u v : Bool}
    (first : Needs x y name u) (second : Needs x y name v) : u = v := by
  cases first with
  | sum i inside =>
      generalize same : wireName "s" i = name at second
      cases second with
      | sum j _ =>
          cases Int.ofNat_inj.mp (Formula.wireName_inj.mp same)
          rfl
      | carry j _ => exact absurd same (Formula.sum_ne_carry i j)
  | carry i inside =>
      generalize same : wireName "c" i = name at second
      cases second with
      | sum j _ => exact absurd same.symm (Formula.sum_ne_carry j i)
      | carry j _ =>
          cases Int.ofNat_inj.mp (Formula.wireName_inj.mp same)
          rfl

theorem Module.Separate.undisputed {m : Module} (separate : m.Separate) (value : Assignment) :
    m.Undisputed value := by
  constructor
  · rintro first inFirst second inSecond name u v ⟨a, b, c, operands, needU⟩
      ⟨a', b', c', operands', needV⟩
    have same := separate.sameOperands first inFirst second inSecond
    rw [operands, operands'] at same
    cases same
    exact needU.unique needV
  · rintro constraint member name declared u ⟨a, b, c, operands, need⟩
    cases need with
    | sum i inside => exact absurd rfl (separate.uncaptured _ declared i).1
    | carry i inside => exact absurd rfl (separate.uncaptured _ declared i).2

/-- What a module of additions means once it is lowered.  Whatever bits are given to the declared
variables, the clauses can be satisfied by values of the other names exactly when every addition
holds and no scratch name is disputed; so the lowered module means its additions for all assignments
just if additions that hold never dispute a name.  They never do where no declared bit has a scratch
name and all additions have the same operands. -/
theorem lowered_additions_meaning (m : Module) (adds : m.AddsOnly) :
    ∃ clauses, lowerAll m.constraints = .ok (clauses.map Line.clause) ∧
      (∀ value, Satisfiable m.bitNames value clauses ↔
        (∀ constraint ∈ m.constraints, constraint.Holds value) ∧ m.Undisputed value) ∧
      ((∀ value, Satisfiable m.bitNames value clauses ↔ ∀ constraint ∈ m.constraints,
        constraint.Holds value) ↔
        ∀ value, (∀ constraint ∈ m.constraints, constraint.Holds value) → m.Undisputed value) ∧
      (m.Separate → ∀ value,
        Satisfiable m.bitNames value clauses ↔ ∀ constraint ∈ m.constraints,
          constraint.Holds value) := by
  obtain ⟨clauses, lowered, meaning⟩ := lowerAll_additions adds.isAddition
  have exactly := satisfiable_iff adds meaning
  refine ⟨clauses, lowered, exactly, ?_, ?_⟩
  · refine forall_congr' fun value => ?_
    rw [exactly]
    exact and_iff_left_iff_imp
  · intro separate value
    rw [exactly]
    exact and_iff_left (separate.undisputed value)

/-- Two additions with the same operands, of variables that keep clear of the scratch names. -/
theorem lowered_additions_meaning_twice :
    let x : Variable := { name := "x", width := 4 }
    let y : Variable := { name := "y", width := 4 }
    let z : Variable := { name := "z", width := 4 }
    let t : Variable := { name := "t", width := 4 }
    let m : Module :=
      { name := "sums"
        vars := [x, y, z, t]
        constraints :=
          [{ kind := .arithmetic, vars := [x, y, z], expression := "z = (x + y) mod 16" },
          { kind := .arithmetic, vars := [x, y, t], expression := "t = (x + y) mod 16" }] }
    m.AddsOnly ∧ m.Separate ∧ ∃ clauses, lowerAll m.constraints = .ok (clauses.map Line.clause) ∧
      ∀ value, Satisfiable m.bitNames value clauses ↔
        ∀ constraint ∈ m.constraints, constraint.Holds value := by
  intro x y z t m
  have adds : m.AddsOnly := by
    intro constraint member
    rcases List.mem_pair.mp member with rfl | rfl
    · exact ⟨x, y, z, ⟨rfl, by decide, by decide, rfl, rfl, rfl, by decide⟩,
        by simp [m], by simp [m], by simp [m]⟩
    · exact ⟨x, y, t, ⟨rfl, by decide, by decide, rfl, rfl, rfl, by decide⟩,
        by simp [m], by simp [m], by simp [m]⟩
  have separate : m.Separate := by
    constructor
    · intro name declared i
      obtain ⟨v, member, j, _, rfl⟩ := Module.mem_bitNames.mp declared
      simp only [m, List.mem_cons, List.not_mem_nil, or_false] at member
      rcases member with rfl | rfl | rfl | rfl
      all_goals
        constructor
        all_goals exact Formula.wireName_ne (by decide) (by decide) (by decide) _ _
    · intro first inFirst second inSecond
      rcases List.mem_pair.mp inFirst with rfl | rfl
      all_goals
        rcases List.mem_pair.mp inSecond with rfl | rfl
        all_goals rfl
  obtain ⟨clauses, lowered, _, _, meaning⟩ := lowered_additions_meaning m adds
  exact ⟨adds, separate, clauses, lowered, meaning separate⟩

/-! ## Disputed names -/

theorem undisputed_of_satisfiable {m : Module} (adds : m.AddsOnly) {clauses : List Clause}
    {value : Assignment} (lowered : lowerAll m.constraints = .ok (clauses.map Line.clause))
    (satisfiable : Satisfiable m.bitNames value clauses) : m.Undisputed value := by
  obtain ⟨made, loweredToo, meaning⟩ := lowerAll_additions adds.isAddition
  have same : clauses = made := by
    rw [lowered, Except.ok.injEq] at loweredToo
    exact List.map_injective_iff.mpr (fun _ _ => Line.clause.inj) loweredToo
  subst same
  exact ((satisfiable_iff adds meaning value).mp satisfiable).2

theorem exampleModule_addsOnly : exampleModule.AddsOnly := by
  intro constraint member
  cases List.mem_singleton.mp member
  exact ⟨_, _, _, ⟨rfl, by decide, by decide, rfl, rfl, rfl, by decide⟩, by simp [exampleModule],
    by simp [exampleModule], by simp [exampleModule]⟩

/-- The module that adds two bytes calls its result `c`, as the chain calls its carries.  With `1 +
1 = 2` its addition holds, but the lowest bit of the result is `0` and the carry out of the lowest
place is `1`: the clauses cannot be satisfied. -/
theorem exampleModule_captures_carry :
    exampleModule.AddsOnly ∧ exampleModule.bitNames.Nodup ∧
      ∃ value : Assignment, (∀ constraint ∈ exampleModule.constraints, constraint.Holds value) ∧
        ∀ clauses, lowerAll exampleModule.constraints = .ok (clauses.map Line.clause) →
          ¬ Satisfiable exampleModule.bitNames value clauses := by
  let value : Assignment := fun name => decide (name ∈ ["a0", "b0", "c1"])
  refine ⟨exampleModule_addsOnly, by decide, value, ?_, ?_⟩
  · intro constraint member a b c operands
    cases List.mem_singleton.mp member
    cases operands
    decide
  · intro clauses lowered satisfiable
    have undisputed := undisputed_of_satisfiable exampleModule_addsOnly lowered satisfiable
    have inside : 0 < (8 : Int).toNat := by decide
    have carried :=
      undisputed.captured _ (List.mem_singleton.mpr rfl) (wireName "c" 0) (by decide) _
        ⟨_, _, _, rfl, .carry 0 inside⟩
    exact absurd carried (by decide)

end Zkvm.Circuit
