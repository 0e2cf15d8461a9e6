import Mathlib.Algebra.BigOperators.Group.List.Basic
import Mathlib.Data.List.Nodup
import Mathlib.Data.Nat.Log
import Zkvm.Folding.Decomposition
import Zkvm.Proofs.Text.Digits

/-!
# Products by a tree of gates

Neighbours are multiplied level by level until one name is left.  A level keeps the product of the
names it is given, because its outputs are names that were not there before; so the last output of
the whole tree is the product of all inputs, one gate is spent for each factor but the first, and
the levels are as many as it takes to halve the number of names down to one.
-/
set_option autoImplicit false

namespace Zkvm.Folding

/-! ## Names of results -/

def treeName (level index : Nat) : String :=
  s!"t_{level}_{index}"

theorem toList_treeName (level index : Nat) :
    (treeName level index).toList =
      't' :: '_' :: ((toString level).toList ++ ['_'] ++ (toString index).toList) := by
  have shape : treeName level index = "t_" ++ toString level ++ "_" ++ toString index := rfl
  rw [shape, String.toList_append, String.toList_append, String.toList_append]
  rfl

theorem treeName_inj {level index level' index' : Nat} :
    treeName level index = treeName level' index' ↔ level = level' ∧ index = index' := by
  constructor
  · intro same
    have lists := congrArg String.toList same
    rw [toList_treeName, toList_treeName, List.cons.injEq, List.cons.injEq] at lists
    obtain ⟨levels, indices⟩ := Text.digits_inj (by decide) (fun _ => Text.isDigit_of_mem_toString)
      (fun _ => Text.isDigit_of_mem_toString) lists.2.2
    exact ⟨Text.eq_of_toList_toString levels, Text.eq_of_toList_toString indices⟩
  · rintro ⟨rfl, rfl⟩
    rfl

def Reserved (name : String) : Prop :=
  name = "mul_out" ∨ ∃ level index, name = treeName level index

/-- No level from the given one on has a result of this name. -/
def FreeFrom (level : Nat) (name : String) : Prop :=
  ∀ later index, level ≤ later → name ≠ treeName later index

theorem FreeFrom.succ {level : Nat} {name : String} (free : FreeFrom level name) :
    FreeFrom (level + 1) name :=
  fun later index above => free later index (by omega)

theorem freeFrom_treeName (level index : Nat) : FreeFrom (level + 1) (treeName level index) := by
  intro later index' above same
  have := (treeName_inj.mp same).1
  omega

theorem freeFrom_of_not_reserved {name : String} (own : ¬ Reserved name) (level : Nat) :
    FreeFrom level name :=
  fun later index _ same => own (.inr ⟨later, index, same⟩)

/-! ## Evaluation -/

namespace ProductGate

section Evaluate
variable {α : Type} (mul : α → α → α) (value : String → α)

theorem evaluate_append (first second : List ProductGate) :
    evaluate mul value (first ++ second) = evaluate mul (evaluate mul value first) second := by
  induction first generalizing value with
  | nil => rfl
  | cons gate rest ih => exact ih _

/-- Gates leave all names alone but those of their outputs. -/
theorem evaluate_of_not_mem {gates : List ProductGate} {name : String}
    (other : name ∉ gates.map output) :
    evaluate mul value gates name = value name := by
  induction gates generalizing value with
  | nil => rfl
  | cons gate rest ih =>
      rw [List.map_cons, List.mem_cons, not_or] at other
      exact (ih _ other.2).trans (if_neg other.1)

end Evaluate

/-- Every gate reads given names and outputs of gates before it. -/
def Wired (inputs : List String) (gates : List ProductGate) : Prop :=
  ∀ before gate after, gates = before ++ gate :: after →
    ∀ name ∈ [gate.left, gate.right], name ∈ inputs ∨ name ∈ before.map output

end ProductGate

/-! ## One level -/

section Level
variable (level index : Nat) (names : List String)

/-- The outputs of a level are numbered one after another, one for every two names. -/
theorem outputs_pairUp :
    (pairUp level index names).1.map ProductGate.output =
      (List.range' index (names.length / 2)).map (treeName level) := by
  fun_induction pairUp level index names with
  | case1 index left right rest output gates outputs step ih =>
      rw [step] at ih
      have half : (left :: right :: rest).length / 2 = rest.length / 2 + 1 := by
        simp only [List.length_cons]
        omega
      rw [half, List.range'_succ, List.map_cons, List.map_cons, ih]
      rfl
  | case2 index last short =>
      obtain _ | ⟨first, _ | ⟨second, rest⟩⟩ := last
      · rfl
      · simp
      · exact absurd rfl (short first second rest)

theorem length_gates_pairUp : (pairUp level index names).1.length = names.length / 2 := by
  have outputs := congrArg List.length (outputs_pairUp level index names)
  simpa using outputs

theorem mem_outputs_pairUp {name : String}
    (member : name ∈ (pairUp level index names).1.map ProductGate.output) :
    ∃ later, index ≤ later ∧ name = treeName level later := by
  rw [outputs_pairUp, List.mem_map] at member
  obtain ⟨later, range, rfl⟩ := member
  exact ⟨later, (List.mem_range'_1.mp range).1, rfl⟩

theorem reads_pairUp {gate : ProductGate} (member : gate ∈ (pairUp level index names).1) :
    gate.left ∈ names ∧ gate.right ∈ names := by
  fun_induction pairUp level index names with
  | case1 index left right rest output gates outputs step ih =>
      rw [step] at ih
      rcases List.mem_cons.mp member with rfl | later
      · simp
      · have both := ih later
        exact ⟨by simp [both.1], by simp [both.2]⟩
  | case2 index last short => cases member

/-- A level hands on its outputs, and a name of its own at most if that was left without a
neighbour. -/
theorem mem_names_pairUp {name : String} (member : name ∈ (pairUp level index names).2) :
    name ∈ names ∨ name ∈ (pairUp level index names).1.map ProductGate.output := by
  fun_induction pairUp level index names with
  | case1 index left right rest output gates outputs step ih =>
      rw [step] at ih
      rcases List.mem_cons.mp member with rfl | later
      · exact .inr (by simp)
      · exact (ih later).imp (by simp +contextual) (by simp +contextual)
  | case2 index last short => exact .inl member

variable {level index names}

theorem freeFrom_pairUp (free : ∀ name ∈ names, FreeFrom level name) :
    ∀ name ∈ (pairUp level index names).2, FreeFrom (level + 1) name := by
  intro name member
  rcases mem_names_pairUp level index names member with given | made
  · exact (free name given).succ
  · obtain ⟨later, -, rfl⟩ := mem_outputs_pairUp level index names made
    exact freeFrom_treeName level later

theorem prod_pairUp {M : Type} [Monoid M] (value : String → M)
    (free : ∀ name ∈ names, FreeFrom level name) :
    ((pairUp level index names).2.map
      (ProductGate.evaluate (· * ·) value (pairUp level index names).1)).prod =
      (names.map value).prod := by
  fun_induction pairUp level index names generalizing value with
  | case1 index left right rest output gates outputs step ih =>
      rw [step] at ih
      have freeRest : ∀ name ∈ rest, FreeFrom level name :=
        fun name member => free name (by simp [member])
      -- The first output is not written again, because the later ones have greater numbers.
      have kept : output ∉ gates.map ProductGate.output := by
        intro again
        have again' : output ∈ (pairUp level (index + 1) rest).1.map ProductGate.output := by
          rwa [step]
        obtain ⟨later, above, same⟩ := mem_outputs_pairUp level (index + 1) rest again'
        have := (treeName_inj.mp same).2
        omega
      have unread : ∀ name ∈ rest, name ≠ output :=
        fun name member => freeRest name member level index (le_refl level)
      have restValues :
          (rest.map fun name => if name = output then value left * value right else value name) =
            rest.map value :=
        List.map_congr_left fun name member => if_neg (unread name member)
      have tail :=
        ih (fun name => if name = output then value left * value right else value name) freeRest
      rw [restValues] at tail
      simp only [List.map_cons, List.prod_cons, ProductGate.evaluate]
      rw [tail, ProductGate.evaluate_of_not_mem _ _ kept, if_pos rfl, mul_assoc]
  | case2 index last short => rfl

end Level

/-! ## All levels -/

def productLevels (level : Nat) (names : List String) : List (List ProductGate) :=
  if names.length ≤ 1 then []
  else (pairUp level 0 names).1 :: productLevels (level + 1) (pairUp level 0 names).2
termination_by names.length
decreasing_by
  simp only [pairUp_length]
  omega

/-- Levels from a number on over known names: the gates of each are numbered from zero, and they
read what was known before the level. -/
inductive Layered : Nat → List String → List (List ProductGate) → Prop
  | nil (level : Nat) (known : List String) : Layered level known []
  | cons {level : Nat} {known : List String} {gates : List ProductGate}
    {later : List (List ProductGate)}
      (filled : gates ≠ [])
      (numbered : gates.map ProductGate.output = (List.range gates.length).map (treeName level))
      (reads : ∀ gate ∈ gates, gate.left ∈ known ∧ gate.right ∈ known)
      (rest : Layered (level + 1) (known ++ gates.map ProductGate.output) later) :
      Layered level known (gates :: later)

section Tree
variable (level : Nat) (names : List String)

theorem flatten_productLevels : (productLevels level names).flatten = productTree level names := by
  fun_induction productLevels level names with
  | case1 level names short => rw [productTree, if_pos short, List.flatten_nil]
  | case2 level names long ih => rw [productTree, if_neg long, List.flatten_cons, ih]

theorem length_productLevels : (productLevels level names).length = Nat.clog 2 names.length := by
  fun_induction productLevels level names with
  | case1 level names short => rw [Nat.clog_of_right_le_one short, List.length_nil]
  | case2 level names long ih =>
      rw [List.length_cons, ih, pairUp_length,
        Nat.clog_of_two_le (by decide) (show 2 ≤ names.length by omega)]
      rfl

theorem length_productTree (filled : names ≠ []) :
    (productTree level names).length + 1 = names.length := by
  have positive := List.length_pos_iff.mpr filled
  fun_induction productTree level names with
  | case1 level names short =>
      rw [List.length_nil]
      omega
  | case2 level names long next ih =>
      have spent : next.1.length = names.length / 2 := length_gates_pairUp level 0 names
      have left : next.2.length = (names.length + 1) / 2 := pairUp_length level 0 names
      have later := ih (List.ne_nil_of_length_pos (by omega)) (by omega)
      rw [List.length_append]
      omega

theorem layered_productLevels {known : List String} (within : ∀ name ∈ names, name ∈ known) :
    Layered level known (productLevels level names) := by
  fun_induction productLevels level names generalizing known with
  | case1 level names short => exact .nil level known
  | case2 level names long ih =>
      have spent := length_gates_pairUp level 0 names
      refine .cons (List.ne_nil_of_length_pos (by omega)) ?_ ?_ (ih fun name member => ?_)
      · rw [outputs_pairUp, spent, List.range_eq_range']
      · intro gate member
        have both := reads_pairUp level 0 names member
        exact ⟨within _ both.1, within _ both.2⟩
      · exact List.mem_append.mpr ((mem_names_pairUp level 0 names member).imp_left (within name))

variable {level names}

/-- The last output of the tree is the product of all names. -/
theorem prod_productTree {M : Type} [Monoid M] (value : String → M)
    (free : ∀ name ∈ names, FreeFrom level name) (several : 2 ≤ names.length) :
    ∃ last, (productTree level names).getLast? = some last ∧
      ProductGate.evaluate (· * ·) value (productTree level names) last.output =
        (names.map value).prod := by
  fun_induction productTree level names generalizing value with
  | case1 level names short => omega
  | case2 level names long next ih =>
      have kept :
          (next.2.map (ProductGate.evaluate (· * ·) value next.1)).prod = (names.map value).prod :=
        prod_pairUp value free
      have left : next.2.length = (names.length + 1) / 2 := pairUp_length level 0 names
      rw [ProductGate.evaluate_append, ← kept]
      by_cases more : 2 ≤ next.2.length
      · obtain ⟨last, ends, product⟩ :=
          ih (ProductGate.evaluate (· * ·) value next.1) (freeFrom_pairUp free) more
        refine ⟨last, ?_, product⟩
        rw [List.getLast?_append, ends, Option.some_or]
      · -- Two names are left, and their product is the only output of this level.
        obtain ⟨first, second, rfl⟩ := List.length_eq_two.mp (show names.length = 2 by omega)
        have done : productTree (level + 1) next.2 = [] := by
          rw [productTree, if_pos (by omega)]
        rw [done, List.append_nil]
        refine ⟨⟨first, second, treeName level 0⟩, rfl, ?_⟩
        exact (List.prod_singleton).symm

end Tree

section Layered
variable {level : Nat} {known : List String} {levels : List (List ProductGate)}

theorem ProductGate.Wired.append {first second : List ProductGate}
    (wired : ProductGate.Wired known first)
    (later : ProductGate.Wired (known ++ first.map ProductGate.output) second) :
    ProductGate.Wired known (first ++ second) := by
  intro before gate after split name reads
  rcases List.append_eq_append_iff.mp split with ⟨middle, rfl, rest⟩ | ⟨middle, rfl, rest⟩
  · have place := later middle gate after rest name reads
    simpa [or_assoc] using place
  · obtain _ | ⟨head, tail⟩ := middle
    · have place := later [] gate after rest.symm name reads
      simpa using place
    · obtain ⟨rfl, -⟩ := List.cons.inj rest
      exact wired before gate tail rfl name reads

theorem Layered.wired (layered : Layered level known levels) :
    ProductGate.Wired known levels.flatten := by
  induction layered with
  | nil level known =>
      intro before gate after split
      simp at split
  | @cons level known gates later filled numbered reads rest ih =>
      refine ProductGate.Wired.append ?_ ih
      rintro before gate after rfl name read
      have both := reads gate (by simp)
      rcases List.mem_pair.mp read with rfl | rfl
      · exact .inl both.1
      · exact .inl both.2

theorem Layered.exists_of_mem (layered : Layered level known levels) {name : String}
    (member : name ∈ levels.flatten.map ProductGate.output) :
    ∃ later index, level ≤ later ∧ name = treeName later index := by
  induction layered with
  | nil level known => cases member
  | @cons level known gates later filled numbered reads rest ih =>
      rw [List.flatten_cons, List.map_append, List.mem_append, numbered] at member
      rcases member with here | there
      · obtain ⟨index, -, rfl⟩ := List.mem_map.mp here
        exact ⟨level, index, le_refl level, rfl⟩
      · obtain ⟨above, index, le, same⟩ := ih there
        exact ⟨above, index, by omega, same⟩

theorem Layered.nodup (layered : Layered level known levels) :
    (levels.flatten.map ProductGate.output).Nodup := by
  induction layered with
  | nil level known => exact .nil
  | @cons level known gates later filled numbered reads rest ih =>
      rw [List.flatten_cons, List.map_append, List.nodup_append']
      refine ⟨?_, ih, ?_⟩
      · rw [numbered]
        exact List.nodup_range.map fun index index' same => (treeName_inj.mp same).2
      · intro name here there
        obtain ⟨above, index, le, rfl⟩ := rest.exists_of_mem there
        rw [numbered] at here
        obtain ⟨index', -, same⟩ := List.mem_map.mp here
        have := (treeName_inj.mp same).1
        omega

end Layered

/-! ## Products of inputs -/

/-- The gates for a product of inputs compute it: one gate less than factors, each with an output of
its own, each reading inputs and earlier outputs only, and the last output is the product.  From
three factors on they lie in levels, as many as the binary logarithm of the number of factors,
rounded up. -/
theorem decomposeProduct_computes {inputs : List String} {degree : Nat} (several : 2 ≤ degree)
    (enough : degree ≤ inputs.length) (own : ∀ name ∈ inputs, ¬ Reserved name) :
    ∃ gates, decomposeProduct inputs degree = .ok gates ∧
      gates.length = degree - 1 ∧
      (gates.map ProductGate.output).Nodup ∧
      ProductGate.Wired (inputs.take degree) gates ∧
      (∀ {M : Type} [CommMonoid M] (value : String → M), ∃ last, gates.getLast? = some last ∧
        ProductGate.evaluate (· * ·) value gates last.output =
          ((inputs.take degree).map value).prod) ∧
      (3 ≤ degree → ∃ levels, gates = levels.flatten ∧ levels.length = Nat.clog 2 degree ∧
        Layered 0 (inputs.take degree) levels) := by
  have length : (inputs.take degree).length = degree := List.length_take_of_le enough
  obtain rfl | more : degree = 2 ∨ 3 ≤ degree := by omega
  · obtain _ | ⟨first, _ | ⟨second, rest⟩⟩ := inputs
    · cases enough
    · simp at enough
    · refine ⟨[⟨first, second, "mul_out"⟩], rfl, rfl, List.nodup_singleton _, ?_, ?_,
        fun more => by omega⟩
      · rintro (_ | ⟨head, tail⟩) gate after split name read
        · obtain ⟨rfl, -⟩ := List.cons.inj split
          exact .inl read
        · simp at split
      · intro M _ value
        refine ⟨_, rfl, ?_⟩
        simp [ProductGate.evaluate]
  · have layered := layered_productLevels 0 (inputs.take degree) fun name member => member
    have gates :
        decomposeProduct inputs degree = .ok (productLevels 0 (inputs.take degree)).flatten := by
      rw [decomposeProduct.eq_def, if_neg (by omega), Int.toNat_natCast, flatten_productLevels]
    have count := length_productTree 0 (inputs.take degree) (List.ne_nil_of_length_pos (by omega))
    rw [length] at count
    refine ⟨_, gates, ?_, layered.nodup, layered.wired, ?_, fun _ => ⟨_, rfl, ?_, layered⟩⟩
    · rw [flatten_productLevels]
      omega
    · intro M _ value
      rw [flatten_productLevels]
      refine prod_productTree value (fun name member => ?_) (by omega)
      exact freeFrom_of_not_reserved (own name (List.mem_of_mem_take member)) 0
    · rw [length_productLevels, length]

theorem not_reserved_of_head {name : String} {c : Char} (head : name.toList.head? = some c)
    (other : c ≠ 't') (unlike : name ≠ "mul_out") : ¬ Reserved name := by
  rintro (rfl | ⟨level, index, rfl⟩)
  · exact unlike rfl
  · rw [toList_treeName, List.head?_cons, Option.some.injEq] at head
    exact other head.symm

/-- Five factors, one of them twice, need four gates in three levels. -/
theorem decomposeProduct_computes_five :
    ∃ gates, decomposeProduct ["a", "b", "a", "c", "d", "e"] (5 : Nat) = .ok gates ∧
      gates.length = 4 ∧
      (∃ last, gates.getLast? = some last ∧
        ProductGate.evaluate (· * ·) (fun name => if name = "a" then 2 else 3) gates last.output =
          108) ∧
      ∃ levels : List (List ProductGate), gates = levels.flatten ∧ levels.length = 3 := by
  have own : ∀ name ∈ ["a", "b", "a", "c", "d", "e"], ¬ Reserved name := by
    intro name member
    simp only [List.mem_cons, List.not_mem_nil, or_false] at member
    rcases member with rfl | rfl | rfl | rfl | rfl | rfl <;>
      exact not_reserved_of_head rfl (by decide) (by decide)
  obtain ⟨gates, made, count, -, -, product, levels⟩ :=
    decomposeProduct_computes (show 2 ≤ 5 by decide) (by decide) own
  obtain ⟨last, ends, computed⟩ := product fun name => if name = "a" then 2 else 3
  obtain ⟨levels, flat, height, -⟩ := levels (by decide)
  exact ⟨gates, made, count, ⟨last, ends, computed.trans (by decide)⟩, levels, flat,
    height.trans (by decide)⟩

end Zkvm.Folding
