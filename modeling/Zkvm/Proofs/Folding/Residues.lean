import Mathlib.Data.Int.ModEq
import Mathlib.Data.List.GetD
import Zkvm.Folding.Noise

/-!
# Noise modulo an odd number

From the negative of a bound up to the bound there is one number of every residue modulo `2 * bound
+ 1`.  The elements of a combination of noise vectors are the numbers of the right residues there,
and so are those of a generated vector. However many vectors are folded into a first one, the result
is the combination of all of them.
-/
set_option autoImplicit false

namespace Zkvm.Folding

/-! ## Vectors that can be made -/

namespace NoiseVector

structure Valid (noise : NoiseVector) : Prop where
  length : (noise.elements.length : Int) = noise.dimension
  bounded : ∀ e ∈ noise.elements, (e.natAbs : Int) ≤ noise.bound

/-- The valid vectors are those that can be made. -/
theorem valid_iff_make (noise : NoiseVector) :
    noise.Valid ↔ make noise.dimension noise.elements noise.bound = .ok noise := by
  rw [make]
  constructor
  · intro valid
    have inside : ¬ (noise.elements.any fun e => decide (noise.bound < e.natAbs)) = true := by
      rw [List.any_eq_true]
      rintro ⟨e, member, beyond⟩
      exact absurd (valid.bounded e member) (Int.not_le.mpr (of_decide_eq_true beyond))
    rw [if_neg (not_not_intro valid.length), if_neg inside]
  · intro made
    by_cases length : (noise.elements.length : Int) = noise.dimension
    · rw [if_neg (not_not_intro length)] at made
      by_cases beyond : (noise.elements.any fun e => decide (noise.bound < e.natAbs)) = true
      · rw [if_pos beyond] at made
        cases made
      · refine ⟨length, fun e member => Int.not_lt.mp fun greater => beyond ?_⟩
        exact List.any_eq_true.mpr ⟨e, member, decide_eq_true greater⟩
    · rw [if_pos length] at made
      cases made

def entry (noise : NoiseVector) (place : Nat) : Int :=
  noise.elements.getD place 0

end NoiseVector

namespace NoiseManager

/-! ## Representatives -/

/-- The elements, one for each dimension, are within the bound and have the residues of given
numbers. -/
structure Represents (bound dimension : Int) (target : Nat → Int) (elements : List Int) : Prop where
  length : (elements.length : Int) = dimension
  bounded : ∀ e ∈ elements, -bound ≤ e ∧ e ≤ bound
  congruent : ∀ place < elements.length, elements.getD place 0 ≡ target place [ZMOD modulus bound]

theorem eq_of_modEq {bound x y : Int} (same : x ≡ y [ZMOD modulus bound])
    (left : -bound ≤ x ∧ x ≤ bound) (right : -bound ≤ y ∧ y ≤ bound) : x = y := by
  have multiple : modulus bound ∣ y - x := same.dvd
  have small : |y - x| < modulus bound := by
    rw [abs_lt, modulus]
    omega
  have none := Int.eq_zero_of_abs_lt_dvd multiple small
  omega

section Represents
variable {bound dimension : Int} {target : Nat → Int} {elements : List Int}
  (represents : Represents bound dimension target elements)
include represents

theorem Represents.unique {other : List Int} (too : Represents bound dimension target other) :
    other = elements := by
  have sameLength : other.length = elements.length := by
    have := represents.length
    have := too.length
    omega
  apply List.ext_getElem sameLength
  intro place there here
  have congruent := (too.congruent place there).trans (represents.congruent place here).symm
  rw [List.getD_eq_getElem _ _ there, List.getD_eq_getElem _ _ here] at congruent
  exact eq_of_modEq congruent (too.bounded _ (List.getElem_mem there))
    (represents.bounded _ (List.getElem_mem here))

theorem Represents.iff_eq (other : List Int) :
    Represents bound dimension target other ↔ other = elements := by
  constructor
  · exact represents.unique
  · rintro rfl
    exact represents

theorem Represents.valid : (NoiseVector.mk dimension elements bound).Valid where
  length := represents.length
  bounded e member := by
    have within := represents.bounded e member
    change (e.natAbs : Int) ≤ bound
    omega

theorem Represents.congr {other : Nat → Int}
    (same : ∀ place < elements.length, target place ≡ other place [ZMOD modulus bound]) :
    Represents bound dimension other elements where
  length := represents.length
  bounded := represents.bounded
  congruent place inside := (represents.congruent place inside).trans (same place inside)

end Represents

section Bounded
variable {bound : Int} (nonnegative : 0 ≤ bound) (value : Int)
include nonnegative

theorem fmod_modulus_bounds :
    0 ≤ value.fmod (modulus bound) ∧ value.fmod (modulus bound) ≤ 2 * bound := by
  have positive : 0 < modulus bound := by
    rw [modulus]
    omega
  refine ⟨Int.fmod_nonneg_of_pos value positive, Int.lt_add_one_iff.mp ?_⟩
  exact Int.fmod_lt_of_pos value positive

theorem fmod_modulus_modEq : value.fmod (modulus bound) ≡ value [ZMOD modulus bound] := by
  rw [Int.fmod_eq_emod_of_nonneg value (by rw [modulus]; omega)]
  exact Int.mod_modEq value _

theorem representative_bounded :
    -bound ≤ representative bound value ∧ representative bound value ≤ bound := by
  obtain ⟨least, greatest⟩ := fmod_modulus_bounds nonnegative value
  rw [representative]
  by_cases high : bound < value.fmod (modulus bound)
  · rw [if_pos high, modulus] at *
    omega
  · rw [if_neg high]
    omega

theorem representative_modEq : representative bound value ≡ value [ZMOD modulus bound] := by
  have congruent := fmod_modulus_modEq nonnegative value
  rw [representative]
  by_cases high : bound < value.fmod (modulus bound)
  · rw [if_pos high]
    exact (Int.modEq_sub_modulus_iff.mpr congruent.symm).symm
  · rw [if_neg high]
    exact congruent

end Bounded

/-! ## Combining and generating -/

section Manager
variable {manager : NoiseManager} (nonnegative : 0 ≤ manager.bound)
include nonnegative

theorem combined_represents {first second : NoiseVector} (firstValid : first.Valid)
    (secondValid : second.Valid) (same : first.dimension = second.dimension) (challenge : Int) :
    Represents manager.bound first.dimension
      (fun place => first.entry place + challenge * second.entry place)
      ((first.elements.zip second.elements).map fun pair =>
        representative manager.bound (pair.1 + challenge * pair.2)) := by
  have firstLength := firstValid.length
  have secondLength := secondValid.length
  constructor
  · rw [List.length_map, List.length_zip]
    omega
  · intro e member
    obtain ⟨pair, _, rfl⟩ := List.mem_map.mp member
    exact representative_bounded nonnegative _
  · intro place inside
    have here : place < first.elements.length := by
      rw [List.length_map, List.length_zip] at inside
      omega
    have there : place < second.elements.length := by omega
    rw [List.getD_eq_getElem _ _ inside, NoiseVector.entry, List.getD_eq_getElem _ _ here,
      NoiseVector.entry, List.getD_eq_getElem _ _ there, List.getElem_map, List.getElem_zip]
    exact representative_modEq nonnegative _

theorem combine_represents {first second : NoiseVector} (firstValid : first.Valid)
    (secondValid : second.Valid) (same : first.dimension = second.dimension) (challenge : Int) :
    ∃ elements, manager.combine first second challenge =
      .ok ⟨first.dimension, elements, manager.bound⟩ ∧
      Represents manager.bound first.dimension
        (fun place => first.entry place + challenge * second.entry place)
        elements := by
  have represents := combined_represents nonnegative firstValid secondValid same challenge
  refine ⟨_, ?_, represents⟩
  rw [combine, if_neg (not_not_intro same)]
  exact (NoiseVector.valid_iff_make _).mp represents.valid

theorem seeded_represents (sized : 0 ≤ manager.dimension) (seed : Int) :
    Represents manager.bound manager.dimension
      (fun place => seed * (place + 1) + place * place - manager.bound)
      (seeded manager.dimension manager.bound seed) := by
  constructor
  · simp [seeded, sized]
  · intro e member
    obtain ⟨place, _, rfl⟩ := List.mem_map.mp member
    have bounds := fmod_modulus_bounds nonnegative (seed * (place + 1) + place * place)
    omega
  · intro place inside
    rw [List.getD_eq_getElem _ _ inside]
    simp only [seeded, List.getElem_map, List.getElem_range]
    exact (fmod_modulus_modEq nonnegative _).sub_right _

theorem generate_represents (sized : 0 ≤ manager.dimension) (seed : Int) :
    ∃ elements, manager.generate seed = .ok (⟨manager.dimension, elements, manager.bound⟩,
        { manager with
          history := manager.history ++ [⟨manager.dimension, elements, manager.bound⟩] }) ∧
      Represents manager.bound manager.dimension
        (fun place => seed * (place + 1) + place * place - manager.bound)
        elements := by
  have represents := seeded_represents nonnegative sized seed
  refine ⟨_, ?_, represents⟩
  rw [generate, (NoiseVector.valid_iff_make _).mp represents.valid]
  rfl

end Manager

/-! ## Folding one after another -/

def combineAll (manager : NoiseManager) (start : NoiseVector) (folds : List (NoiseVector × Int)) :
    Except Failure NoiseVector :=
  folds.foldlM (fun noise fold => manager.combine noise fold.1 fold.2) start

def total (start : NoiseVector) (folds : List (NoiseVector × Int)) (place : Nat) : Int :=
  start.entry place + (folds.map fun fold => fold.2 * fold.1.entry place).sum

theorem total_cons (start : NoiseVector) (fold : NoiseVector × Int)
    (rest : List (NoiseVector × Int)) (place : Nat) :
    total start (fold :: rest) place =
      start.entry place + fold.2 * fold.1.entry place +
        (rest.map fun fold => fold.2 * fold.1.entry place).sum := by
  rw [total, List.map_cons, List.sum_cons, ← add_assoc]

theorem combineAll_represents {manager : NoiseManager} (nonnegative : 0 ≤ manager.bound)
    {start : NoiseVector} (valid : start.Valid) {folds : List (NoiseVector × Int)}
    (folded : ∀ fold ∈ folds, fold.1.Valid ∧ fold.1.dimension = start.dimension) :
    ∃ result, manager.combineAll start folds = .ok result ∧ result.Valid ∧
      result.dimension = start.dimension ∧
      ((folds = [] → ∀ e ∈ start.elements, -manager.bound ≤ e ∧ e ≤ manager.bound) →
        Represents manager.bound start.dimension (total start folds) result.elements) := by
  induction folds generalizing start with
  | nil =>
      refine ⟨start, rfl, valid, rfl, fun within => ⟨valid.length, within rfl, fun place _ => ?_⟩⟩
      rw [total, List.map_nil, List.sum_nil, add_zero]
      exact Int.ModEq.refl _
  | cons fold rest ih =>
      obtain ⟨⟨foldValid, sameDimension⟩, restFolded⟩ := List.forall_mem_cons.mp folded
      obtain ⟨elements, combined, step⟩ :=
        combine_represents nonnegative valid foldValid sameDimension.symm fold.2
      -- the first combination is within the bound, so that the rest starts from a representative
      obtain ⟨result, run, resultValid, dimension, represents⟩ := ih step.valid restFolded
      refine ⟨result, ?_, resultValid, dimension, fun _ => ?_⟩
      · rw [combineAll, List.foldlM_cons, combined]
        exact run
      · refine (represents fun _ => step.bounded).congr fun place inside => ?_
        have sameLength : result.elements.length = elements.length := by
          have := resultValid.length
          have := step.length
          simp only at dimension
          omega
        rw [total_cons]
        exact (step.congruent place (sameLength ▸ inside)).add_right _

/-- Noise is exact arithmetic modulo `2 * bound + 1`.  A combination of valid vectors of one
dimension, whatever their own bounds, never fails, and its elements are the only ones within the
bound that are congruent to the first vector's plus the second one's times the challenge.  So it is
with any number of vectors that are folded into a first one, if that one is within the bound or
there is anything to fold.  A seed gives the only elements within the bound that are congruent to
its multiples plus the squares, less the bound, and they are remembered. -/
theorem noise_exact (manager : NoiseManager) (nonnegative : 0 ≤ manager.bound) :
    (∀ (first second : NoiseVector) (challenge : Int), first.Valid → second.Valid →
      first.dimension = second.dimension →
      ∃ elements, manager.combine first second challenge =
        .ok ⟨first.dimension, elements, manager.bound⟩ ∧
        ∀ other, Represents manager.bound first.dimension
          (fun place => first.entry place + challenge * second.entry place) other ↔
            other = elements) ∧
    (∀ (start : NoiseVector) (folds : List (NoiseVector × Int)), start.Valid →
      (∀ fold ∈ folds, fold.1.Valid ∧ fold.1.dimension = start.dimension) →
      ∃ result, manager.combineAll start folds = .ok result ∧ result.Valid ∧
      result.dimension = start.dimension ∧
        ((folds = [] → ∀ e ∈ start.elements, -manager.bound ≤ e ∧ e ≤ manager.bound) →
          ∀ other, Represents manager.bound start.dimension (total start folds) other ↔
            other = result.elements)) ∧
    (0 ≤ manager.dimension → ∀ seed : Int,
      ∃ elements, manager.generate seed = .ok (⟨manager.dimension, elements, manager.bound⟩,
          { manager with history := manager.history ++
            [⟨manager.dimension, elements, manager.bound⟩] }) ∧
        ∀ other, Represents manager.bound manager.dimension
          (fun place => seed * (place + 1) + place * place - manager.bound) other ↔
            other = elements) := by
  refine ⟨?_, ?_, ?_⟩
  · intro first second challenge firstValid secondValid same
    obtain ⟨elements, combined, represents⟩ :=
      combine_represents nonnegative firstValid secondValid same challenge
    exact ⟨elements, combined, represents.iff_eq⟩
  · intro start folds valid folded
    obtain ⟨result, run, resultValid, dimension, represents⟩ :=
      combineAll_represents nonnegative valid folded
    exact ⟨result, run, resultValid, dimension, fun within => (represents within).iff_eq⟩
  · intro sized seed
    obtain ⟨elements, generated, represents⟩ := generate_represents nonnegative sized seed
    exact ⟨elements, generated, represents.iff_eq⟩

/-- Two vectors folded into one beyond the bound, with a negative challenge and a large one. -/
theorem noise_exact_folded :
    let manager : NoiseManager := { dimension := 2, bound := 3 }
    let start : NoiseVector := ⟨2, [10, -4], 10⟩
    let folds : List (NoiseVector × Int) := [(⟨2, [5, 7], 7⟩, -3), (⟨2, [1, 0], 1⟩, 100)]
    0 ≤ manager.bound ∧ start.Valid ∧
      (∀ fold ∈ folds, fold.1.Valid ∧ fold.1.dimension = start.dimension) ∧
      ∃ result, manager.combineAll start folds = .ok result ∧ result.elements = [-3, 3] := by
  intro manager start folds
  have nonnegative : 0 ≤ manager.bound := by decide
  have valid : start.Valid := ⟨by decide, by decide⟩
  have folded : ∀ fold ∈ folds, fold.1.Valid ∧ fold.1.dimension = start.dimension := by
    refine List.forall_mem_cons.mpr ⟨⟨⟨by decide, by decide⟩, rfl⟩, ?_⟩
    exact List.forall_mem_singleton.mpr ⟨⟨by decide, by decide⟩, rfl⟩
  obtain ⟨result, run, _, _, only⟩ := (noise_exact manager nonnegative).2.1 start folds valid folded
  have represents : Represents 3 2 (total start folds) [-3, 3] := ⟨by decide, by decide, by decide⟩
  have unique := only (fun none => absurd none (List.cons_ne_nil _ _)) [-3, 3]
  exact ⟨nonnegative, valid, folded, result, run, (unique.mp represents).symm⟩

/-- Where nothing is folded the first vector stays as it is, even if it is not within the bound. -/
theorem nothing_folded_unbounded :
    let manager : NoiseManager := { dimension := 1, bound := 3 }
    let start : NoiseVector := ⟨1, [10], 10⟩
    0 ≤ manager.bound ∧ start.Valid ∧ manager.combineAll start [] = .ok start ∧
      Represents manager.bound start.dimension (total start []) [3] ∧
      ¬ Represents manager.bound start.dimension (total start []) start.elements := by
  intro manager start
  refine ⟨by decide, ⟨by decide, by decide⟩, rfl, ⟨by decide, by decide, by decide⟩,
    fun represents => ?_⟩
  exact absurd (represents.bounded 10 (List.mem_singleton_self 10)) (by decide)

end NoiseManager

end Zkvm.Folding
