import Zkvm.Proofs.Circuit.Limits

/-!
# How full groups are

The group that is being filled counts its names exactly.  Its length is exact too, but for the first
group, whose first line counts with four characters for a join that is not there.  So a group is
closed just when the next line would bring it beyond a limit, where the limit on the length of the
first group is lower by four.
-/
set_option autoImplicit false

namespace Zkvm.Circuit

open Formula (joinTexts)

/-- Lines with some characters to spare are within the limits. -/
def Limits.Admit (limits : Limits) (spare : Nat) (lines : List String) : Prop :=
  ((joinTexts lines).length + spare : Int) ≤ limits.maxLength ∧
    ((countedNames lines).length : Int) ≤ limits.maxNames

theorem Limits.Admit.unspared {limits : Limits} {spare : Nat} {lines : List String}
    (admitted : limits.Admit spare lines) : limits.Admit 0 lines := by
  obtain ⟨long, named⟩ := admitted
  exact ⟨by omega, named⟩

/-! ## Exact counts -/

namespace Group

/-- The length is ahead of that of the lines by what is to spare, and the names are those of the
lines. -/
structure Tracks (spare : Nat) (group : Group) : Prop extends group.Counts where
  ahead : group.length = (joinTexts group.lines).length + spare
  distinct : group.names.Nodup
  owned : ∀ name ∈ group.names, ∃ line ∈ group.lines, name ∈ namesIn line

end Group

theorem nodup_newOnes (seen names : List String) : (newOnes seen names).Nodup := by
  induction names generalizing seen with
  | nil => exact List.nodup_nil
  | cons name rest ih =>
      rw [newOnes]
      split
      · exact ih seen
      · refine List.nodup_cons.mpr ⟨?_, ih (name :: seen)⟩
        intro again
        exact (mem_newOnes.mp again).2 (List.mem_cons_self ..)

theorem nodup_union {first : List String} (distinct : first.Nodup) (second : List String) :
    (union first second).Nodup := by
  refine List.nodup_append.mpr ⟨distinct, nodup_newOnes first second, ?_⟩
  rintro name here _ there rfl
  exact (mem_newOnes.mp there).2 here

namespace Group

theorem tracks_single (line : String) (spare : Nat) :
    Tracks spare ⟨[line], line.length + spare, namesIn line⟩ where
  toCounts := counts_single (Nat.le_add_right ..)
  ahead := by rw [joinTexts, String.intercalate_singleton]
  distinct := nodup_newOnes [] _
  owned name there := ⟨line, List.mem_singleton_self line, there⟩

section Filling
variable {spare : Nat} {group : Group} (tracks : group.Tracks spare)
include tracks

theorem Tracks.push (line : String) : (group.push line).Tracks spare where
  toCounts := tracks.toCounts.push line
  ahead := by
    have before := length_joinTexts tracks.filled
    have after := length_joinTexts (tracks.toCounts.push line).filled
    have ahead := tracks.ahead
    simp only [Group.push, List.map_append, List.sum_append, List.map_cons, List.map_nil,
      List.sum_cons, List.sum_nil] at after ⊢
    omega
  distinct := nodup_union tracks.distinct _
  owned name there := by
    rcases mem_union.mp there with earlier | new
    · obtain ⟨other, member, named⟩ := tracks.owned name earlier
      exact ⟨other, List.mem_append_left _ member, named⟩
    · exact ⟨line, List.mem_append_right _ (List.mem_singleton_self line), new⟩

theorem Tracks.length_names : group.names.length = (countedNames group.lines).length := by
  rw [countedNames]
  apply List.Perm.length_eq
  rw [List.perm_ext_iff_of_nodup tracks.distinct (List.nodup_dedup _)]
  intro name
  rw [List.mem_dedup, List.mem_flatMap]
  constructor
  · exact tracks.owned name
  · rintro ⟨line, member, named⟩
    exact tracks.names line member name named

/-- What is tested of a group is whether its lines are within the limits. -/
theorem Tracks.fits_iff (limits : Limits) :
    group.fits limits = true ↔ limits.Admit spare group.lines := by
  rw [Group.fits, Bool.and_eq_true, decide_eq_true_eq, decide_eq_true_eq, tracks.ahead,
    tracks.length_names, Limits.Admit, Nat.cast_add]

end Filling

end Group

/-! ## Groups one after another -/

/-- Every group is within the limits if it has several lines, and the first line of the next one
would bring it beyond them.  Only the first group has characters to spare. -/
inductive Packed (limits : Limits) : Nat → List (List String) → Prop where
  | last {spare : Nat} {group : List String} (filled : group ≠ [])
      (within : 2 ≤ group.length → limits.Admit spare group) : Packed limits spare [group]
  | next {spare : Nat} {group rest : List String} {line : String} {later : List (List String)}
    (filled : group ≠ [])
      (within : 2 ≤ group.length → limits.Admit spare group)
        (full : ¬ limits.Admit spare (group ++ [line]))
      (others : Packed limits 0 ((line :: rest) :: later)) :
        Packed limits spare (group :: (line :: rest) :: later)

theorem pack_eq_cons (limits : Limits) (current : Group) (lines : List String) :
    ∃ more later, pack limits current lines = (current.lines ++ more) :: later := by
  induction lines generalizing current with
  | nil => exact ⟨[], [], by rw [pack, List.append_nil]⟩
  | cons line rest ih =>
      rw [pack]
      split
      · obtain ⟨more, later, shape⟩ := ih (current.push line)
        refine ⟨line :: more, later, ?_⟩
        rw [shape, Group.push, List.append_assoc, List.singleton_append]
      · exact ⟨[], pack limits (Group.single line) rest, by rw [List.append_nil]⟩

theorem packed_pack {limits : Limits} {spare : Nat} {current : Group}
    (tracks : current.Tracks spare)
    (within : 2 ≤ current.lines.length → limits.Admit spare current.lines) (lines : List String) :
    Packed limits spare (pack limits current lines) := by
  induction lines generalizing spare current with
  | nil => exact .last tracks.filled within
  | cons line rest ih =>
      rw [pack]
      by_cases fits : (current.push line).fits limits = true
      · rw [if_pos fits]
        exact ih (tracks.push line) fun _ => ((tracks.push line).fits_iff limits).mp fits
      · rw [if_neg fits]
        -- a new group has one line, so that nothing is asked of it yet
        have others : Packed limits 0 (pack limits (Group.single line) rest) :=
          ih (Group.tracks_single line 0) fun several => absurd several (by simp [Group.single])
        have full : ¬ limits.Admit spare (current.lines ++ [line]) := by
          rwa [(tracks.push line).fits_iff limits] at fits
        obtain ⟨more, later, shape⟩ := pack_eq_cons limits (Group.single line) rest
        rw [shape] at others ⊢
        exact .next tracks.filled within full others

theorem packed_split (limits : Limits) {lines : List String} (filled : lines ≠ []) :
    Packed limits 4 (split limits lines) := by
  cases lines with
  | nil => exact absurd rfl filled
  | cons line rest =>
      exact packed_pack (Group.tracks_single line 4) (fun several => absurd several (by simp)) rest

section Packed
variable {limits : Limits} {spare : Nat} {groups : List (List String)}
  (packed : Packed limits spare groups)
include packed

theorem Packed.within {group : List String} (member : group ∈ groups) :
    group ≠ [] ∧ (2 ≤ group.length → limits.Admit 0 group) := by
  induction packed with
  | last filled within =>
      cases List.mem_singleton.mp member
      exact ⟨filled, fun several => (within several).unspared⟩
  | next filled within _ _ ih =>
      rcases List.mem_cons.mp member with rfl | later
      · exact ⟨filled, fun several => (within several).unspared⟩
      · exact ih later

theorem Packed.full (few : spare ≤ 4) :
    groups.IsChain fun earlier later => ∃ line rest,
      later = line :: rest ∧ ¬ limits.Admit 4 (earlier ++ [line]) := by
  induction packed with
  | last _ _ => exact List.isChain_singleton _
  | next _ _ full _ ih =>
      refine List.isChain_cons_cons.mpr ⟨⟨_, _, rfl, ?_⟩, ih (Nat.zero_le 4)⟩
      rintro ⟨long, named⟩
      exact full ⟨by omega, named⟩

end Packed

/-- Lines are distributed in order, none is lost, and no group is empty.  A group of several lines,
joined, has at most the greatest length, and the names in its lines are at most as many as may be.
Of two groups that follow each other, the earlier one with the first line of the later one would be
longer than the greatest length less four, or have too many names. -/
theorem split_full_groups (limits : Limits) (lines : List String) :
    (split limits lines).flatten = lines ∧
    (∀ group ∈ split limits lines, group ≠ [] ∧
      (2 ≤ group.length → ((joinTexts group).length : Int) ≤ limits.maxLength ∧
        ((countedNames group).length : Int) ≤ limits.maxNames)) ∧
    (split limits lines).IsChain fun earlier later => ∃ line rest, later = line :: rest ∧
      (limits.maxLength - 4 < (joinTexts (earlier ++ [line])).length ∨
        limits.maxNames < (countedNames (earlier ++ [line])).length) := by
  refine ⟨split_flatten limits lines, ?_⟩
  by_cases filled : lines = []
  · subst filled
    exact ⟨List.forall_mem_nil _, List.isChain_nil⟩
  · have packed := packed_split limits filled
    constructor
    · intro group member
      obtain ⟨nonempty, within⟩ := packed.within member
      refine ⟨nonempty, fun several => ?_⟩
      obtain ⟨long, named⟩ := within several
      exact ⟨by omega, named⟩
    · refine (packed.full (Nat.le_refl 4)).imp ?_
      rintro earlier later ⟨line, rest, shape, full⟩
      refine ⟨line, rest, shape, ?_⟩
      by_contra neither
      rw [not_or] at neither
      exact full ⟨by omega, by omega⟩

end Zkvm.Circuit
