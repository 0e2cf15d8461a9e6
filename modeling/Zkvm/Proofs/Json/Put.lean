import Mathlib.Data.List.Nodup
import Zkvm.Json.Basic

/-!
# Setting a field

A field that is set has its new value and the others have their old ones; names that were distinct
stay so.
-/
set_option autoImplicit false

namespace Zkvm.Json
variable {α : Type} {key other : String} {value : α} {fields : List (String × α)}

theorem mem_keys_put (member : other ∈ (put key value fields).map Prod.fst) :
    other = key ∨ other ∈ fields.map Prod.fst := by
  induction fields with
  | nil => simpa [put] using member
  | cons field rest ih =>
      by_cases here : field.1 = key
      · simp only [put, if_pos here, List.map_cons, List.mem_cons] at member ⊢
        exact member.imp_right Or.inr
      · simp only [put, if_neg here, List.map_cons, List.mem_cons] at member ⊢
        rcases member with first | later
        · exact Or.inr (Or.inl first)
        · exact (ih later).imp_right Or.inr

theorem nodup_put (distinct : (fields.map Prod.fst).Nodup) :
    ((put key value fields).map Prod.fst).Nodup := by
  induction fields with
  | nil => simp [put]
  | cons field rest ih =>
      rw [List.map_cons, List.nodup_cons] at distinct
      by_cases here : field.1 = key
      · rw [put, if_pos here, List.map_cons, List.nodup_cons, ← here]
        exact distinct
      · rw [put, if_neg here, List.map_cons, List.nodup_cons]
        refine ⟨fun again => ?_, ih distinct.2⟩
        exact (mem_keys_put again).elim here distinct.1

theorem mem_put {field : String × α} (member : field ∈ put key value fields) :
    field = (key, value) ∨ field ∈ fields := by
  induction fields with
  | nil => simpa [put] using member
  | cons first rest ih =>
      by_cases here : first.1 = key
      · simp only [put, if_pos here, List.mem_cons] at member ⊢
        exact member.imp_right Or.inr
      · simp only [put, if_neg here, List.mem_cons] at member ⊢
        rcases member with same | later
        · exact Or.inr (Or.inl same)
        · exact (ih later).imp_right Or.inr

theorem put_of_not_mem (new : key ∉ fields.map Prod.fst) :
    put key value fields = fields ++ [(key, value)] := by
  induction fields with
  | nil => rfl
  | cons field rest ih =>
      rw [List.map_cons, List.mem_cons, not_or] at new
      rw [put, if_neg (Ne.symm new.1), ih new.2, List.cons_append]

theorem lookup_cons_eq {κ : Type} [DecidableEq κ] (name : κ) (field : κ × α) (rest : List (κ × α)) :
    (field :: rest).lookup name = if name = field.1 then some field.2 else rest.lookup name := by
  by_cases same : name = field.1
  · rw [List.lookup_cons, if_pos same, beq_iff_eq.mpr same]
  · rw [List.lookup_cons, if_neg same, beq_false_of_ne same]

theorem lookup_put (key other : String) (value : α) (fields : List (String × α)) :
    (put key value fields).lookup other = if other = key then some value
      else fields.lookup other := by
  induction fields with
  | nil => rw [put, lookup_cons_eq]
  | cons field rest ih =>
      by_cases here : field.1 = key
      · rw [put, if_pos here, lookup_cons_eq, lookup_cons_eq, here]
        split <;> rfl
      · rw [put, if_neg here, lookup_cons_eq, lookup_cons_eq, ih]
        by_cases same : other = key
        · simp only [if_pos same, if_neg (same ▸ Ne.symm here)]
        · simp only [if_neg same]

end Zkvm.Json
