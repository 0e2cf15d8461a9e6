import Zkvm.Proofs.Circuit.Legibility
import Zkvm.Proofs.Formula.Row

/-!
# Parts with open inputs

A part that stands alone gives its inputs sample values.  When parts are put together these
assignments are left out, and the remaining texts are to be true.  If all texts are those of
clauses, this is the truth of the clauses that give no constant to an input.
-/
set_option autoImplicit false

namespace Zkvm

namespace Term

@[simp]
theorem names_xor (left right : Term) : (left ^^^ right).names = left.names ++ right.names := rfl

@[simp]
theorem names_and (left right : Term) : (left &&& right).names = left.names ++ right.names := rfl

@[simp]
theorem names_or (left right : Term) : (left ||| right).names = left.names ++ right.names := rfl

theorem mem_names_sum {a b before : Term} {name : String} :
    name ∈ (sum a b before).names ↔ name ∈ a.names ∨ name ∈ b.names ∨ name ∈ before.names := by
  simp [sum, names]

theorem mem_names_carry {a b before : Term} {name : String} :
    name ∈ (carry a b before).names ↔ name ∈ a.names ∨ name ∈ b.names ∨ name ∈ before.names := by
  simp only [carry, names, names_and, names_xor, names_or, List.mem_append]
  tauto

section Eval
variable (value : Assignment) (left right : Term)

@[simp]
theorem eval_xor : (left ^^^ right).eval value = (left.eval value ^^ right.eval value) := rfl

@[simp]
theorem eval_and : (left &&& right).eval value = (left.eval value && right.eval value) := rfl

@[simp]
theorem eval_or : (left ||| right).eval value = (left.eval value || right.eval value) := rfl

@[simp]
theorem eval_flipped : left.flipped.eval value = !left.eval value :=
  Bool.xor_true _

end Eval

end Term

/-- The clause gives a constant to one of the names. -/
def Clause.Assigns (names : List String) (clause : Clause) : Prop :=
  ∃ name ∈ names, ∃ bit, clause = .fix name bit

theorem Clause.Assigns.mono {names more : List String} {clause : Clause}
    (gives : clause.Assigns names) (wider : names ⊆ more) : clause.Assigns more := by
  obtain ⟨name, member, bit, rfl⟩ := gives
  exact ⟨name, wider member, bit, rfl⟩

def Clause.isConstant : Clause → Bool
  | .define _ (.bit _) => true
  | _ => false

def Clause.names : Clause → List String
  | .define name value => name :: value.names
  | .demand term => term.names

namespace Formula

def assigns (names : List String) (text : String) : Bool :=
  names.any fun name => text == (Clause.fix name false).text || text == (Clause.fix name true).text

def opened (names texts : List String) : List String :=
  texts.filter fun text => !assigns names text

def HoldsOpened (names : List String) (value : Assignment) (texts : List String) : Prop :=
  ∀ text ∈ opened names texts, holdsText value text = true

/-- All clauses are true but those that give a constant to one of the names. -/
def HoldsBeside (names : List String) (value : Assignment) (clauses : List Clause) : Prop :=
  ∀ clause ∈ clauses, ¬ clause.Assigns names → clause.holds value = true

theorem holds_define (value : Assignment) (name : String) (term : Term) :
    (Clause.define name term).holds value = true ↔ value name = term.eval value :=
  beq_iff_eq

theorem holds_singleton (value : Assignment) (clause : Clause) :
    holds value [clause] = true ↔ clause.holds value = true := by
  rw [holds, List.all_cons, List.all_nil, Bool.and_true]

theorem holds_nil (value : Assignment) : holds value [] = true :=
  rfl

theorem holds_cons (value : Assignment) (clause : Clause) (rest : List Clause) :
    holds value (clause :: rest) = true ↔ clause.holds value = true ∧ holds value rest = true := by
  rw [holds, List.all_cons, Bool.and_eq_true, holds]

/-! ## Texts and clauses -/

theorem assigns_iff {names : List String} {text : String} :
    assigns names text = true ↔ ∃ name ∈ names, ∃ bit, text = (Clause.fix name bit).text := by
  simp [assigns, Bool.exists_bool]

/-- Clauses that are read from the same text are the same if one of them defines a name. -/
theorem fix_of_text {clause : Clause} {name : String} {bit : Bool} (bracketed : clause.Bracketed)
    (named : IsName name) (same : clause.text = (Clause.fix name bit).text) :
    clause = .fix name bit := by
  have fixed : read clause.text = some (.neg (.gate .xor (.var name) (.bit bit))) := by
    rw [same]
    exact read_define named (.bit bit)
  cases clause with
  | define other term =>
      rw [read_define bracketed.1 bracketed.2] at fixed
      cases fixed
      rfl
  | demand term =>
      rw [Clause.text, read_text bracketed] at fixed
      cases fixed
      cases bracketed

theorem assigns_text {names : List String} {clause : Clause} (bracketed : clause.Bracketed)
    (named : ∀ name ∈ names, IsName name) :
    assigns names clause.text = true ↔ clause.Assigns names := by
  rw [assigns_iff]
  constructor
  · rintro ⟨name, member, bit, same⟩
    exact ⟨name, member, bit, fix_of_text bracketed (named name member) same⟩
  · rintro ⟨name, member, bit, rfl⟩
    exact ⟨name, member, bit, rfl⟩

theorem holdsText_text {clause : Clause} (bracketed : clause.Bracketed) (value : Assignment) :
    holdsText value clause.text = clause.holds value := by
  obtain ⟨term, done, meaning⟩ := read_clause bracketed
  rw [holdsText_eq done, meaning]

theorem mem_opened {names : List String} {clauses : List Clause} {text : String}
    (bracketed : ∀ clause ∈ clauses, clause.Bracketed) (named : ∀ name ∈ names, IsName name) :
    text ∈ opened names (clauses.map Clause.text) ↔
      ∃ clause ∈ clauses, ¬ clause.Assigns names ∧ clause.text = text := by
  rw [opened, List.mem_filter, Bool.not_eq_true', List.mem_map]
  constructor
  · rintro ⟨⟨clause, member, rfl⟩, kept⟩
    refine ⟨clause, member, fun gives => ?_, rfl⟩
    rw [(assigns_text (bracketed clause member) named).mpr gives] at kept
    cases kept
  · rintro ⟨clause, member, kept, rfl⟩
    refine ⟨⟨clause, member, rfl⟩, Bool.eq_false_iff.mpr fun gives => kept ?_⟩
    exact (assigns_text (bracketed clause member) named).mp gives

theorem holdsOpened_iff {names : List String} {clauses : List Clause}
    (bracketed : ∀ clause ∈ clauses, clause.Bracketed) (named : ∀ name ∈ names, IsName name)
    (value : Assignment) :
    HoldsOpened names value (clauses.map Clause.text) ↔ HoldsBeside names value clauses := by
  constructor
  · intro texts clause member kept
    rw [← holdsText_text (bracketed clause member)]
    exact texts _ ((mem_opened bracketed named).mpr ⟨clause, member, kept, rfl⟩)
  · intro clausesHold text member
    obtain ⟨clause, inClauses, kept, rfl⟩ := (mem_opened bracketed named).mp member
    rw [holdsText_text (bracketed clause inClauses)]
    exact clausesHold clause inClauses kept

theorem holdsOpened_append {names first second : List String} {value : Assignment} :
    HoldsOpened names value (first ++ second) ↔
      HoldsOpened names value first ∧ HoldsOpened names value second := by
  rw [HoldsOpened, opened, List.filter_append]
  exact List.forall_mem_append

section Lists
variable {names : List String} {value : Assignment} {first second : List Clause}

theorem holdsBeside_append :
    HoldsBeside names value (first ++ second) ↔
      HoldsBeside names value first ∧ HoldsBeside names value second :=
  List.forall_mem_append

theorem not_assigns_of_isConstant {clause : Clause} (defined : clause.isConstant = false) :
    ¬ clause.Assigns names := by
  rintro ⟨name, _, bit, rfl⟩
  cases defined

theorem holdsBeside_iff_holds (defined : first.any Clause.isConstant = false) :
    HoldsBeside names value first ↔ holds value first = true := by
  rw [holds, List.all_eq_true]
  refine forall₂_congr fun clause member => ⟨fun kept => kept ?_, fun holds _ => holds⟩
  exact not_assigns_of_isConstant
    (Bool.eq_false_iff.mpr (List.any_eq_false.mp defined clause member))

theorem holdsBeside_fix {name : String} {bit : Bool} (other : name ∉ names) :
    HoldsBeside names value [.fix name bit] ↔ value name = bit := by
  have kept : ¬ (Clause.fix name bit).Assigns names := by
    rintro ⟨given, member, constant, same⟩
    cases same
    exact other member
  rw [HoldsBeside, List.forall_mem_singleton, Clause.fix, Clause.holds, beq_iff_eq]
  exact ⟨fun given => given kept, fun given _ => given⟩

end Lists

/-! ## Given values -/

/-- The clauses do nothing but give constants to the names. -/
structure Supplies (names : List String) (clauses : List Clause) : Prop where
  named : ∀ name ∈ names, IsName name
  assigns : ∀ clause ∈ clauses, clause.Assigns names

theorem supplies_nil {names : List String} (named : ∀ name ∈ names, IsName name) :
    Supplies names [] where
  named := named
  assigns := List.forall_mem_nil _

theorem supplies_fix {name : String} (named : IsName name) (bit : Bool) :
    Supplies [name] [.fix name bit] where
  named := List.forall_mem_singleton.mpr named
  assigns := List.forall_mem_singleton.mpr ⟨name, List.mem_singleton_self _, bit, rfl⟩

namespace Supplies
variable {names more : List String} {value : Assignment} {first second : List Clause}

theorem append (supplies : Supplies names first) (others : Supplies more second) :
    Supplies (names ++ more) (first ++ second) where
  named := List.forall_mem_append.mpr ⟨supplies.named, others.named⟩
  assigns := List.forall_mem_append.mpr
    ⟨fun clause member => (supplies.assigns clause member).mono (List.subset_append_left _ _),
      fun clause member => (others.assigns clause member).mono (List.subset_append_right _ _)⟩

theorem bracketed (supplies : Supplies names first) : ∀ clause ∈ first, clause.Bracketed := by
  intro clause member
  obtain ⟨name, listed, bit, rfl⟩ := supplies.assigns clause member
  exact ⟨supplies.named name listed, .bit bit⟩

theorem holdsBeside (supplies : Supplies names first) (wider : names ⊆ more) :
    HoldsBeside more value first :=
  fun clause member kept => absurd ((supplies.assigns clause member).mono wider) kept

/-- Of a part that first gives values to its inputs, the rest remains. -/
theorem holdsOpened_append (supplies : Supplies names first)
    (rest : ∀ clause ∈ second, clause.Bracketed) :
    HoldsOpened names value ((first ++ second).map Clause.text) ↔
      HoldsBeside names value second := by
  rw [holdsOpened_iff (List.forall_mem_append.mpr ⟨supplies.bracketed, rest⟩) supplies.named,
    holdsBeside_append]
  exact and_iff_right (supplies.holdsBeside (List.Subset.refl _))

end Supplies

end Formula

end Zkvm
