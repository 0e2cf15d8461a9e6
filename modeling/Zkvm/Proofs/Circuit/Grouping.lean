import Mathlib.Data.List.Nodup
import Zkvm.Circuit.Grouping
import Zkvm.Formula.Basic

/-!
# Groups of lines

Lines are distributed in order and none is lost.  A group of several lines has a length and a number
of names, as the distribution counts them, within the limits; a group of one line may have any.
-/
set_option autoImplicit false

namespace Zkvm.Circuit

open Formula (joinTexts)

/-! ## Names that are counted -/

theorem mem_newOnes {seen names : List String} {name : String} :
    name ∈ newOnes seen names ↔ name ∈ names ∧ name ∉ seen := by
  induction names generalizing seen with
  | nil => simp [newOnes]
  | cons first rest ih =>
      by_cases known : first ∈ seen
      · rw [newOnes, if_pos (List.contains_iff_mem.mpr known), ih, List.mem_cons]
        constructor
        · exact fun ⟨later, new⟩ => ⟨Or.inr later, new⟩
        · rintro ⟨rfl | later, new⟩
          · exact absurd known new
          · exact ⟨later, new⟩
      · rw [newOnes, if_neg (fun there => known (List.contains_iff_mem.mp there)), List.mem_cons,
          ih, List.mem_cons, List.mem_cons, not_or]
        constructor
        · rintro (rfl | ⟨later, _, new⟩)
          · exact ⟨Or.inl rfl, known⟩
          · exact ⟨Or.inr later, new⟩
        · rintro ⟨same | later, new⟩
          · exact Or.inl same
          · by_cases same : name = first
            · exact Or.inl same
            · exact Or.inr ⟨later, same, new⟩

theorem mem_union {first second : List String} {name : String} :
    name ∈ union first second ↔ name ∈ first ∨ name ∈ second := by
  rw [union, List.mem_append, mem_newOnes]
  constructor
  · exact Or.imp_right And.left
  · rintro (here | there)
    · exact Or.inl here
    · by_cases here : name ∈ first
      · exact Or.inl here
      · exact Or.inr ⟨there, here⟩

/-! ## Groups that are being filled -/

namespace Group

/-- The length and the names of a group are counted for all its lines. -/
structure Counts (group : Group) : Prop where
  filled : group.lines ≠ []
  length : (joinTexts group.lines).length ≤ group.length
  names : ∀ line ∈ group.lines, ∀ name ∈ namesIn line, name ∈ group.names

theorem counts_single {line : String} {length : Nat} (long : line.length ≤ length) :
    Counts ⟨[line], length, namesIn line⟩ where
  filled := by simp
  length := by
    rw [joinTexts, String.intercalate_singleton]
    exact long
  names other member name there := by
    rw [List.mem_singleton.mp member] at there
    exact there

theorem Counts.push {group : Group} (counts : group.Counts) (line : String) :
    (group.push line).Counts where
  filled := by simp [Group.push]
  length := by
    have length := counts.length
    have four : (" && " : String).length = 4 := rfl
    rw [joinTexts] at length
    change (joinTexts (group.lines ++ [line])).length ≤ group.length + line.length + 4
    rw [joinTexts, String.intercalate_append_of_ne_nil counts.filled (by simp),
      String.intercalate_singleton, String.length_append, String.length_append, four]
    omega
  names other member name there := by
    rw [Group.push, List.mem_append, List.mem_singleton] at member
    rw [Group.push, mem_union]
    rcases member with earlier | rfl
    · exact Or.inl (counts.names other earlier name there)
    · exact Or.inr there

/-- Only a group of one line may go beyond the limits. -/
def Allowed (limits : Limits) (group : Group) : Prop :=
  group.fits limits = true ∨ ∃ line, group.lines = [line]

end Group

/-! ## Distributing lines -/

/-- A line that would make the group too long opens the next one. -/
theorem pack_long {limits : Limits} {current : Group} {line : String}
    (long : limits.maxLength < (current.length + line.length + 4 : Nat)) (rest : List String) :
    pack limits current (line :: rest) = current.lines :: pack limits (Group.single line) rest := by
  have full : (current.push line).fits limits = false := by
    rw [Group.fits, Group.push, Bool.and_eq_false_iff, decide_eq_false_iff_not]
    exact Or.inl (Int.not_le.mpr long)
  rw [pack, full]
  rfl

theorem pack_flatten (limits : Limits) (current : Group) (lines : List String) :
    (pack limits current lines).flatten = current.lines ++ lines := by
  induction lines generalizing current with
  | nil => simp [pack]
  | cons line rest ih =>
      rw [pack]
      split
      · rw [ih, Group.push, List.append_assoc, List.singleton_append]
      · rw [List.flatten_cons, ih, Group.single, List.singleton_append]

theorem split_flatten (limits : Limits) (lines : List String) :
    (split limits lines).flatten = lines := by
  cases lines with
  | nil => rfl
  | cons line rest => exact pack_flatten limits _ rest

theorem counts_of_mem_pack {limits : Limits} {current : Group} (counts : current.Counts)
    (allowed : current.Allowed limits) {lines group : List String}
    (member : group ∈ pack limits current lines) :
    ∃ filled : Group, filled.lines = group ∧ filled.Counts ∧ filled.Allowed limits := by
  induction lines generalizing current with
  | nil =>
      rw [pack, List.mem_singleton] at member
      exact ⟨current, member.symm, counts, allowed⟩
  | cons line rest ih =>
      rw [pack] at member
      split at member
      · next fits => exact ih (counts.push line) (Or.inl fits) member
      · rcases List.mem_cons.mp member with rfl | later
        · exact ⟨current, rfl, counts, allowed⟩
        · exact ih (Group.counts_single (Nat.le_refl _)) (Or.inr ⟨line, rfl⟩) later

theorem counts_of_mem_split {limits : Limits} {lines group : List String}
    (member : group ∈ split limits lines) :
    ∃ filled : Group, filled.lines = group ∧ filled.Counts ∧ filled.Allowed limits := by
  cases lines with
  | nil => cases member
  | cons line rest =>
      exact counts_of_mem_pack (Group.counts_single (Nat.le_add_right ..))
        (Or.inr ⟨line, rfl⟩) member

theorem mem_of_mem_split {limits : Limits} {lines group : List String}
    (member : group ∈ split limits lines) {line : String} (inside : line ∈ group) :
    line ∈ lines := by
  rw [← split_flatten limits lines]
  exact List.mem_flatten.mpr ⟨group, member, inside⟩

theorem ne_nil_of_mem_split {limits : Limits} {lines group : List String}
    (member : group ∈ split limits lines) :
    group ≠ [] := by
  obtain ⟨filled, rfl, counts, _⟩ := counts_of_mem_split member
  exact counts.filled

end Zkvm.Circuit
