import Zkvm.Proofs.Circuit.Addition
import Zkvm.Proofs.Formula.Opening

/-!
# An addition has one solution

The clauses of an addition speak of five rows of bits: the two operands, the result, the sums and
the carries.  The operands fix the other three.  So the solutions for given operands are the
assignments that agree with one table of names and bits, and if no name is twice in the table there
is exactly one.
-/
set_option autoImplicit false

namespace Zkvm.Circuit

open Formula (wireName row holds holdsText places IsName)

/-! ## Tables -/

def wires (name : String) {width : Nat} (bits : BitVec width) : List (String × Bool) :=
  (List.range width).map fun i : Nat => (wireName name i, bits.getLsbD i)

def Agrees (value : Assignment) (table : List (String × Bool)) : Prop :=
  ∀ entry ∈ table, value entry.1 = entry.2

theorem agrees_append {value : Assignment} {first second : List (String × Bool)} :
    Agrees value (first ++ second) ↔ Agrees value first ∧ Agrees value second :=
  List.forall_mem_append

theorem agrees_wires {value : Assignment} {name : String} {width : Nat} {bits : BitVec width} :
    Agrees value (wires name bits) ↔ row value name width = bits := by
  rw [Agrees, wires, List.forall_mem_map, Formula.row_eq_iff]
  simp only [List.mem_range]

theorem keys_wires (name : String) {width : Nat} (bits : BitVec width) :
    (wires name bits).map Prod.fst = (List.range width).map fun i : Nat => wireName name i := by
  rw [wires, List.map_map]
  rfl

theorem mem_keys_wires {name place : String} {width : Nat} {bits : BitVec width} :
    place ∈ (wires name bits).map Prod.fst ↔ ∃ i < width, wireName name (i : Nat) = place := by
  simp only [keys_wires, List.mem_map, List.mem_range]

theorem nodup_keys_wires (name : String) {width : Nat} (bits : BitVec width) :
    ((wires name bits).map Prod.fst).Nodup := by
  rw [keys_wires]
  refine List.nodup_range.map ?_
  intro i j same
  exact Int.ofNat_inj.mp (Formula.wireName_inj.mp same)

/-- No name is listed with two values. -/
def SingleValued (table : List (String × Bool)) : Prop :=
  ∀ name, (name, true) ∈ table → (name, false) ∉ table

theorem singleValued_of_nodup {table : List (String × Bool)}
    (distinct : (table.map Prod.fst).Nodup) :
    SingleValued table := by
  intro name here there
  cases List.inj_on_of_nodup_map distinct here there rfl

theorem singleValued_wires (name : String) {width : Nat} (bits : BitVec width) :
    SingleValued (wires name bits) :=
  singleValued_of_nodup (nodup_keys_wires name bits)

theorem wires_apart {first second : String} (some : first.toList.head?.isSome)
    (other : second.toList.head?.isSome) (differ : first.toList.head? ≠ second.toList.head?)
    {width : Nat} (x y : BitVec width) :
    ∀ name ∈ (wires first x).map Prod.fst, name ∉ (wires second y).map Prod.fst := by
  intro name here there
  obtain ⟨i, _, rfl⟩ := mem_keys_wires.mp here
  obtain ⟨j, _, same⟩ := mem_keys_wires.mp there
  exact Formula.wireName_ne some other differ i j same.symm

theorem SingleValued.append {first second : List (String × Bool)} (left : SingleValued first)
    (right : SingleValued second)
    (apart : ∀ name ∈ first.map Prod.fst, name ∉ second.map Prod.fst) :
    SingleValued (first ++ second) := by
  intro name here there
  rcases List.mem_append.mp here with here | here
  · rcases List.mem_append.mp there with there | there
    · exact left name here there
    · exact apart name (List.mem_map_of_mem here) (List.mem_map_of_mem there)
  · rcases List.mem_append.mp there with there | there
    · exact apart name (List.mem_map_of_mem there) (List.mem_map_of_mem here)
    · exact right name here there

theorem exists_agrees_of_singleValued {table : List (String × Bool)} (single : SingleValued table) :
    ∃ value, Agrees value table := by
  refine ⟨fun name => decide ((name, true) ∈ table), ?_⟩
  rintro ⟨name, bit⟩ member
  cases bit with
  | true => exact decide_eq_true member
  | false => exact decide_eq_false fun other => single name other member

theorem exists_agrees {table : List (String × Bool)} (distinct : (table.map Prod.fst).Nodup) :
    ∃ value, Agrees value table :=
  exists_agrees_of_singleValued (singleValued_of_nodup distinct)

/-- Assignments that agree with a table agree with each other on its names. -/
theorem Agrees.congr {first second : Assignment} {table : List (String × Bool)}
    (here : Agrees first table) (there : Agrees second table) {name : String}
    (listed : name ∈ table.map Prod.fst) : first name = second name := by
  obtain ⟨entry, member, rfl⟩ := List.mem_map.mp listed
  rw [here entry member, there entry member]

/-! ## Declared rows -/

section Declared
variable {a b c : Variable} (secondWidth : b.width = a.width) (thirdWidth : c.width = a.width)
  (x y z : BitVec a.width.toNat)
include secondWidth thirdWidth

theorem keys_declared :
    (wires a.name x ++ wires b.name y ++ wires c.name z).map Prod.fst =
      a.bitNames ++ b.bitNames ++ c.bitNames := by
  simp only [List.map_append, keys_wires, Variable.bitNames, places, secondWidth, thirdWidth]

/-- Three rows with names of their own may have any bits, whatever is listed beside them. -/
theorem exists_beside (apart : (a.bitNames ++ b.bitNames ++ c.bitNames).Nodup)
    {scratch : List (String × Bool)} (single : SingleValued scratch)
    (clear : ∀ name ∈ a.bitNames ++ b.bitNames ++ c.bitNames, name ∉ scratch.map Prod.fst) :
    ∃ value : Assignment, row value a.name a.width.toNat = x ∧ row value b.name a.width.toNat = y ∧
      row value c.name a.width.toNat = z ∧ Agrees value scratch := by
  have keys := keys_declared secondWidth thirdWidth x y z
  have declared : SingleValued (wires a.name x ++ wires b.name y ++ wires c.name z) := by
    apply singleValued_of_nodup
    rw [keys]
    exact apart
  have beside : ∀ name ∈ (wires a.name x ++ wires b.name y ++ wires c.name z).map Prod.fst,
      name ∉ scratch.map Prod.fst := by
    rw [keys]
    exact clear
  obtain ⟨value, agrees⟩ := exists_agrees_of_singleValued (declared.append single beside)
  simp only [agrees_append, agrees_wires] at agrees
  obtain ⟨⟨⟨first, second⟩, third⟩, scratched⟩ := agrees
  exact ⟨value, first, second, third, scratched⟩

end Declared

/-! ## The names of an addition -/

theorem names_additionChain {a b : String} {width : Int} (positive : 1 ≤ width) {clause : Clause}
    (member : clause ∈ Formula.additionChain a b width) {name : String}
    (named : name ∈ clause.names) :
    ∃ word ∈ [a, b, "s", "c"], ∃ i < width.toNat, wireName word (i : Nat) = name := by
  rcases List.mem_append.mp member with lowest | later
  · have inside : 0 < width.toNat := by omega
    rcases List.mem_pair.mp lowest with rfl | rfl
    all_goals
      simp only [Clause.wire, Clause.names, Term.wire, Term.names, Term.names_xor, Term.names_and,
        List.mem_cons, List.mem_append, List.not_mem_nil, or_false] at named
      rcases named with rfl | rfl | rfl
      all_goals exact ⟨_, by simp, 0, inside, rfl⟩
  · obtain ⟨place, inPlaces, adder⟩ := List.mem_flatMap.mp later
    obtain ⟨i, inRange, rfl⟩ := List.mem_map.mp inPlaces
    have inside : i + 1 < width.toNat := by
      have := List.mem_range.mp inRange
      omega
    have before : ((i + 1 : Nat) : Int) - 1 = i := by omega
    simp only [before] at adder
    rcases List.mem_pair.mp adder with rfl | rfl
    all_goals
      simp only [Clause.wire, Clause.names, List.mem_cons, Term.mem_names_sum, Term.mem_names_carry,
        Term.wire, Term.names, List.not_mem_nil, or_false] at named
      rcases named with rfl | rfl | rfl | rfl
      · exact ⟨_, by simp, i + 1, inside, rfl⟩
      · exact ⟨_, by simp, i + 1, inside, rfl⟩
      · exact ⟨_, by simp, i + 1, inside, rfl⟩
      · -- the carry comes from the place before
        exact ⟨"c", by simp, i, by omega, rfl⟩

def carries {width : Nat} (x y : BitVec width) : BitVec width :=
  BitVec.ofFnLE fun i => BitVec.carry (i + 1) x y false

theorem getLsbD_carries {width i : Nat} (x y : BitVec width) (inside : i < width) :
    (carries x y).getLsbD i = BitVec.carry (i + 1) x y false := by
  rw [carries, BitVec.getLsbD_ofFnLE, dif_pos inside]

section Table
variable (a b c : Variable)

section Distinct
variable {a b c} (secondWidth : b.width = a.width) (thirdWidth : c.width = a.width)
  (apart : (a.bitNames ++ b.bitNames ++ c.bitNames).Nodup)
  (clear : ∀ name ∈ a.bitNames ++ b.bitNames ++ c.bitNames, ∀ i < a.width.toNat,
    name ≠ wireName "s" i ∧ name ≠ wireName "c" i)
include secondWidth thirdWidth apart clear

end Distinct

end Table

end Zkvm.Circuit
