import Mathlib.Data.Int.ModEq
import Zkvm.Lookup.Table
import Zkvm.Proofs.Circuit.Subtraction
import Zkvm.Proofs.Formula.Solution

/-!
# What an entry decides

An entry of a lookup table fixes the bits of its operands, computes a row from them and compares it
with the expected value.  Whatever integers it is made of, its statement has one solution, and
`result` is true in it exactly if the expected value is, modulo 256, what the operation gives.
-/
set_option autoImplicit false

namespace Zkvm

/-! ## Bits of integers -/

namespace Formula

theorem getLsbD_ofInt {width i : Nat} (inside : i < width) (value : Int) :
    (BitVec.ofInt width value).getLsbD i = value.testBit i := by
  cases value with
  | ofNat n =>
      rw [Int.ofNat_eq_natCast, BitVec.ofInt_natCast, BitVec.getLsbD_ofNat, decide_eq_true inside,
        Bool.true_and]
      rfl
  | negSucc n =>
      rw [BitVec.ofInt_negSucc_eq_not_ofNat, Circuit.getLsbD_not _ inside, BitVec.getLsbD_ofNat,
        decide_eq_true inside, Bool.true_and, Int.testBit]

theorem ofInt_eq_ofInt_iff {u v : Int} :
    BitVec.ofInt 8 u = BitVec.ofInt 8 v ↔ v ≡ u [ZMOD 256] := by
  rw [BitVec.toNat_eq, BitVec.toNat_ofInt, BitVec.toNat_ofInt, Int.ModEq]
  omega

theorem ofInt_shiftLeft (width : Nat) (value : Int) (count : Nat) :
    BitVec.ofInt width (value <<< count) = BitVec.ofInt width value <<< count := by
  have power : BitVec.ofInt width (2 ^ count) = BitVec.twoPow width count := by
    rw [show (2 ^ count : Int) =
      (2 ^ count : Nat) by norm_cast, BitVec.ofInt_natCast, BitVec.toNat_eq,
      BitVec.toNat_ofNat, BitVec.toNat_twoPow]
  rw [Int.shiftLeft_eq, BitVec.ofInt_mul, power, BitVec.shiftLeft_eq_mul_twoPow]

theorem ofInt_shiftRight (value : Int) (count : Nat) :
    BitVec.ofInt 8 ((value % 256) >>> count) = BitVec.ofInt 8 value >>> count := by
  have low : value % 256 = (BitVec.ofInt 8 value).toNat := by
    rw [BitVec.toNat_ofInt]
    omega
  rw [low, ← Int.natCast_shiftRight, BitVec.ofInt_natCast, ← BitVec.toNat_ushiftRight,
    BitVec.ofNat_toNat, BitVec.setWidth_eq]

end Formula

namespace Lookup

open Formula Circuit
open Term (wire joined)

/-! ## Rows of a table -/

section Rows
variable {width : Nat} {name : String} {bits : BitVec width} {table : List (String × Bool)}

theorem row_of_listed (listed : wires name bits ⊆ table) {value : Assignment}
    (agrees : Agrees value table) {i : Nat} (inside : i < width) :
    value (wireName name i) = bits.getLsbD i :=
  row_eq_iff.mp (agrees_wires.mp fun entry member => agrees entry (listed member)) i inside

theorem wireName_mem_keys (listed : wires name bits ⊆ table) {i : Nat} (inside : i < width) :
    wireName name i ∈ table.map Prod.fst :=
  List.map_subset _ listed (mem_keys_wires.mpr ⟨i, inside, rfl⟩)

theorem adds_all {gathered : String} {places : List Nat} (isName : IsName name)
    (gatheredName : IsName gathered) (listed : wires name bits ⊆ table) (filled : places ≠ [])
    (inside : ∀ i ∈ places, i < width) :
    Adds table [.define gathered (.group (joined .and (places.map fun i : Nat => wire name i)))]
      [(gathered, places.all bits.getLsbD)] := by
  obtain ⟨first, rest, rfl⟩ := List.exists_cons_of_ne_nil filled
  have place (i : Nat) : (wire name i).Bracketed := Term.bracketed_wire isName i
  apply adds_define gatheredName
  · exact .group rfl (place first) (List.forall_mem_map.mpr fun i _ => place i)
  · intro used there
    rw [Term.names, Term.names_joined, List.flatMap_map, List.mem_flatMap] at there
    obtain ⟨i, member, same⟩ := there
    rw [List.mem_singleton.mp same]
    exact wireName_mem_keys listed (inside i member)
  · intro value agrees
    rw [Term.eval, Term.eval_joined_all (fun _ _ => rfl), List.all_map, Bool.eq_iff_iff,
      List.all_eq_true, List.all_eq_true]
    refine forall₂_congr fun i member => ?_
    rw [← row_of_listed listed agrees (inside i member)]
    rfl

end Rows

def rowNames (words : List String) : List String :=
  words.flatMap fun word => (List.range 8).map fun i : Nat => wireName word i

/-- Rows whose names begin differently have names of their own. -/
theorem nodup_rowNames {words : List String} (named : ∀ word ∈ words, IsName word)
    (apart : (words.map fun word => word.toList.head?).Nodup) : (rowNames words).Nodup := by
  have begins {word : String} (isName : IsName word) : word.toList.head?.isSome = true := by
    have letters := isName.begins
    cases shape : word.toList with
    | nil =>
        rw [shape] at letters
        cases letters
    | cons c rest => rfl
  induction words with
  | nil => exact List.nodup_nil
  | cons word rest ih =>
      rw [List.forall_mem_cons] at named
      rw [List.map_cons, List.nodup_cons] at apart
      refine List.nodup_append.mpr ⟨?_, ih named.2 apart.2, ?_⟩
      · refine List.nodup_range.map ?_
        intro i j same
        exact Int.ofNat_inj.mp (wireName_inj.mp same)
      · intro name here other there
        obtain ⟨i, _, rfl⟩ := List.mem_map.mp here
        obtain ⟨later, member, inRow⟩ := List.mem_flatMap.mp there
        obtain ⟨j, _, rfl⟩ := List.mem_map.mp inRow
        refine wireName_ne (begins named.1) (begins (named.2 later member)) ?_ i j
        intro same
        exact apart.1 (same ▸ List.mem_map_of_mem member)

theorem nodup_rowNames_append {words singles : List String} (named : ∀ word ∈ words, IsName word)
    (apart : (words.map fun word => word.toList.head?).Nodup) (own : singles.Nodup)
    (fresh : ∀ single ∈ singles, single ∉ rowNames words) : (rowNames words ++ singles).Nodup := by
  refine List.nodup_append.mpr ⟨nodup_rowNames named apart, own, ?_⟩
  intro name inRows single member same
  exact fresh single member (same ▸ inRows)

/-! ## Parts of an entry -/

theorem adds_fixBits {table : List (String × Bool)} {name : String} (isName : IsName name)
    (value : Int) :
    Adds table (fixBits value name 8) (wires name (BitVec.ofInt 8 value)) := by
  change Adds table ((List.range 8).map fun i : Nat => .wire name i (.bit (bitOf value i))) _
  apply adds_row isName
  · intro i _
    exact .bit _
  · intro i _
    exact List.forall_mem_nil _
  · intro solution _ i inside
    rw [Term.eval, getLsbD_ofInt inside, bitOf_eq_testBit]

theorem adds_operands {second : String} (isName : IsName second) (a b : Int) :
    Adds [] (operands a second b) (wires "a" (BitVec.ofInt 8 a) ++
      wires second (BitVec.ofInt 8 b)) :=
  (adds_fixBits (by decide) a).append (adds_fixBits isName b)

theorem eval_check (value : Assignment) (name : String) (expected : Bool) :
    (check name expected).eval value = !(value name ^^ expected) := by
  cases expected with
  | true => rw [check, if_pos rfl, Term.eval, Bool.xor_true, Bool.not_not]
  | false => rw [check, if_neg Bool.false_ne_true, Term.eval_flipped, Term.eval, Bool.xor_false]

theorem names_check (name : String) (expected : Bool) : (check name expected).names = [name] := by
  cases expected <;> rfl

theorem bracketed_check {name : String} (isName : IsName name) (expected : Bool) :
    (check name expected).Bracketed := by
  cases expected with
  | true => exact .var isName
  | false => exact Term.Bracketed.flipped (.var isName)

section Verify
variable {table : List (String × Bool)} {name : String} {z : BitVec 8}

theorem adds_checks (isName : IsName name) (listed : wires name z ⊆ table) (expected : Int) :
    Adds table
      ((List.range 8).map fun i : Nat => .wire "t" i (check (wireName name i) (bitOf expected i)))
      (wires "t" (~~~(z ^^^ BitVec.ofInt 8 expected))) := by
  apply adds_row (by decide)
  · intro i _
    exact bracketed_check (isName.wire i) _
  · intro i inside
    rw [names_check, List.forall_mem_singleton]
    exact wireName_mem_keys listed inside
  · intro value agrees i inside
    rw [eval_check, row_of_listed listed agrees inside, getLsbD_not _ inside, BitVec.getLsbD_xor,
      getLsbD_ofInt inside, bitOf_eq_testBit]

/-- All places of the comparison are true exactly if the two are the same. -/
theorem all_not_xor_eq (z e : BitVec 8) :
    ((List.range 8).all fun i => (~~~(z ^^^ e)).getLsbD i) = decide (z = e) := by
  rw [Bool.eq_iff_iff, List.all_eq_true, decide_eq_true_iff]
  constructor
  · intro same
    apply BitVec.eq_of_getLsbD_eq
    intro i inside
    have place := same i (List.mem_range.mpr inside)
    rw [getLsbD_not _ inside, BitVec.getLsbD_xor] at place
    simpa using place
  · rintro rfl i member
    rw [getLsbD_not _ (List.mem_range.mp member), BitVec.getLsbD_xor, Bool.xor_self, Bool.not_false]

theorem adds_verify (isName : IsName name) (listed : wires name z ⊆ table) (expected : Int) :
    Adds table (verify expected name 8) (wires "t" (~~~(z ^^^ BitVec.ofInt 8 expected)) ++
      [("result", decide (z = BitVec.ofInt 8 expected))]) := by
  rw [← all_not_xor_eq]
  refine (adds_checks isName listed expected).append ?_
  exact adds_all (by decide) (by decide) (List.subset_append_right _ _) (by decide) fun _ =>
    List.mem_range.mp

end Verify

/-- An entry tells whether the row that it computes is that of the expected value. -/
theorem entry_decides {second name : String} {computed : List Clause} {a b : Int} {z : BitVec 8}
    {scratch : List (String × Bool)} (words : List String) (secondName : IsName second)
    (rowName : IsName name)
    (computes :
      Adds (wires "a" (BitVec.ofInt 8 a) ++ wires second (BitVec.ofInt 8 b)) computed scratch)
    (listed : wires name z ⊆ scratch) (keys : scratch.map Prod.fst = rowNames words)
    (distinct : (rowNames (["a", second] ++ words ++ ["t"]) ++ ["result"]).Nodup) (expected : Int) :
    Decides (Formula.text (operands a second b ++ computed ++ verify expected name 8)) "result"
      (z = BitVec.ofInt 8 expected) := by
  have computedToo : Adds [] (operands a second b ++ computed)
      (wires "a" (BitVec.ofInt 8 a) ++ wires second (BitVec.ofInt 8 b) ++ scratch) :=
    (adds_operands secondName a b).append computes
  have adds := computedToo.append
    (adds_verify rowName (List.Subset.trans listed (List.subset_append_right _ _)) expected)
  have gathered :
      Clause.define "result" (.group (joined .and ((List.range 8).map fun i : Nat => wire "t" i))) ∈
        operands a second b ++ computed ++ verify expected name 8 :=
    List.mem_append_right _ (List.mem_append_right _ (List.mem_singleton_self _))
  refine (adds.decides ?_
    (List.mem_append_right _ (List.mem_append_right _ (List.mem_singleton_self _)))
    ⟨_, gathered, List.mem_cons_self⟩).congr decide_eq_true_iff
  simpa only [List.map_append, keys, keys_wires, rowNames, List.flatMap_append, List.flatMap_cons,
    List.flatMap_nil, List.append_nil, List.append_assoc, List.map_cons, List.map_nil]
      using distinct

/-! ## Operations on single bits -/

section Bitwise
variable {gate : Gate} (a b : Int)

theorem adds_bitwise (signed : gate.sign?.isSome = true) {value : Int}
    (bits : ∀ i, value.testBit i = gate.apply (a.testBit i) (b.testBit i)) :
    Adds (wires "a" (BitVec.ofInt 8 a) ++ wires "b" (BitVec.ofInt 8 b)) (bitwise gate 8)
      (wires "r" (BitVec.ofInt 8 value)) := by
  have first :=
    List.subset_append_left (wires "a" (BitVec.ofInt 8 a)) (wires "b" (BitVec.ofInt 8 b))
  have second :=
    List.subset_append_right (wires "a" (BitVec.ofInt 8 a)) (wires "b" (BitVec.ofInt 8 b))
  change Adds _ ((List.range 8).map fun i : Nat =>
    .wire "r" i (.group (.gate gate (wire "a" i) (wire "b" i)))) _
  apply adds_row (by decide)
  · intro i _
    exact .pair signed (Term.bracketed_wire (by decide) i) (Term.bracketed_wire (by decide) i)
  · intro i inside
    change ∀ used ∈ [wireName "a" i, wireName "b" i], _
    simp only [List.forall_mem_cons, List.not_mem_nil, false_implies, implies_true, and_true]
    exact ⟨wireName_mem_keys first inside, wireName_mem_keys second inside⟩
  · intro value agrees i inside
    change gate.apply (value (wireName "a" i)) (value (wireName "b" i)) = _
    rw [row_of_listed first agrees inside, row_of_listed second agrees inside, getLsbD_ofInt inside,
      getLsbD_ofInt inside, getLsbD_ofInt inside, bits]

theorem bitwise_decides (signed : gate.sign?.isSome = true) {value : Int}
    (bits : ∀ i, value.testBit i = gate.apply (a.testBit i) (b.testBit i)) (expected : Int) :
    Decides (Formula.text (operands a "b" b ++ bitwise gate 8 ++ verify expected "r" 8)) "result"
      (expected ≡ value [ZMOD 256]) :=
  (entry_decides ["r"] (by decide) (by decide) (adds_bitwise a b signed bits) (List.Subset.refl _)
    (keys_wires _ _)
    (nodup_rowNames_append (by decide) (by decide) (by decide) (by decide +kernel)) expected).congr
      ofInt_eq_ofInt_iff

end Bitwise

/-! ## Sums -/

theorem adds_addition (a b : Int) :
    Adds (wires "a" (BitVec.ofInt 8 a) ++ wires "b" (BitVec.ofInt 8 b)) (additionChain "a" "b" 8)
      (wires "s" (BitVec.ofInt 8 (a + b)) ++
        wires "c" (carries (BitVec.ofInt 8 a) (BitVec.ofInt 8 b))) where
  bracketed := bracketed_additionChain (by decide) (by decide)
  named clause member name inside := by
    obtain ⟨word, isWord, place⟩ := names_additionChain (by decide) member inside
    simp only [List.map_append, List.mem_append, mem_keys_wires]
    simp only [List.mem_cons, List.not_mem_nil, or_false] at isWord
    rcases isWord with rfl | rfl | rfl | rfl
    · exact .inl (.inl place)
    · exact .inl (.inr place)
    · exact .inr (.inl place)
    · exact .inr (.inr place)
  solutions value agrees := by
    obtain ⟨first, second⟩ := agrees_append.mp agrees
    rw [agrees_wires] at first second
    rw [holds_additionChain value "a" "b" (by decide), agrees_append, agrees_wires, agrees_wires,
      row_eq_iff, row_eq_iff, BitVec.ofInt_add]
    change (∀ i < (8 : Nat), value (wireName "s" i) =
      (row value "a" 8 + row value "b" 8).getLsbD i ∧
      value (wireName "c" i) = BitVec.carry (i + 1) (row value "a" 8) (row value "b" 8) false) ↔ _
    rw [first, second, ← forall₂_and]
    refine forall₂_congr fun i inside => ?_
    rw [getLsbD_carries _ _ inside]

theorem addition_decides (a b expected : Int) :
    Decides (Formula.text (encode .add 8 a b expected)) "result" (expected ≡ a + b [ZMOD 256]) :=
  (entry_decides ["s", "c"] (by decide) (by decide) (adds_addition a b)
    (List.subset_append_left _ _)
    (by rw [List.map_append, keys_wires, keys_wires]; rfl)
    (nodup_rowNames_append (by decide) (by decide) (by decide) (by decide +kernel)) expected).congr
      ofInt_eq_ofInt_iff

/-! ## Shifts -/

/-- A row that is made of places of another row and of zeros. -/
theorem adds_moved {table : List (String × Bool)} {x z : BitVec 8} (listed : wires "a" x ⊆ table)
    {term : Nat → Term}
    (moves : ∀ i < 8, (∃ j < 8, term i = wire "a" (j : Nat) ∧ z.getLsbD i = x.getLsbD j) ∨
      (term i = .bit false ∧ z.getLsbD i = false)) :
    Adds table ((List.range 8).map fun i : Nat => .wire "r" i (term i)) (wires "r" z) := by
  apply adds_row (by decide)
  · intro i inside
    rcases moves i inside with ⟨j, _, place, _⟩ | ⟨zero, _⟩
    · rw [place]
      exact Term.bracketed_wire (by decide) j
    · rw [zero]
      exact .bit false
  · intro i inside
    rcases moves i inside with ⟨j, known, place, _⟩ | ⟨zero, _⟩
    · rw [place]
      exact List.forall_mem_singleton.mpr (wireName_mem_keys listed known)
    · rw [zero]
      exact List.forall_mem_nil _
  · intro value agrees i inside
    rcases moves i inside with ⟨j, known, place, bit⟩ | ⟨zero, bit⟩
    · rw [place, bit]
      exact row_of_listed listed agrees known
    · rw [zero, bit, Term.eval]

section Shifts
variable (a : Int) (count : Nat)

theorem adds_shiftUp :
    Adds (wires "a" (BitVec.ofInt 8 a) ++ wires "sh" (BitVec.ofInt 8 count)) (shiftUp count 8)
      (wires "r" (BitVec.ofInt 8 (a <<< count))) := by
  apply adds_moved (List.subset_append_left _ _)
  intro i inside
  rw [ofInt_shiftLeft, BitVec.getLsbD_shiftLeft, decide_eq_true inside, Bool.true_and]
  by_cases reached : count ≤ i
  · refine .inl ⟨i - count, by omega, ?_, ?_⟩
    · rw [if_pos (Int.ofNat_le.mpr reached), Int.ofNat_sub reached]
    · rw [decide_eq_false (by omega), Bool.not_false, Bool.true_and]
  · refine .inr ⟨if_neg (by omega), ?_⟩
    rw [decide_eq_true (by omega : i < count), Bool.not_true, Bool.false_and]

theorem adds_shiftDown :
    Adds (wires "a" (BitVec.ofInt 8 a) ++ wires "sh" (BitVec.ofInt 8 count)) (shiftDown count 8)
      (wires "r" (BitVec.ofInt 8 ((a % 256) >>> count))) := by
  apply adds_moved (List.subset_append_left _ _)
  intro i _
  rw [ofInt_shiftRight, BitVec.getLsbD_ushiftRight, Nat.add_comm count]
  by_cases inside : i + count < 8
  · refine .inl ⟨i + count, inside, ?_, rfl⟩
    rw [if_pos (by omega), Int.natCast_add]
  · exact .inr ⟨if_neg (by omega), BitVec.getLsbD_of_ge _ _ (by omega)⟩

theorem shiftUp_decides (expected : Int) :
    Decides (Formula.text (encode .shl 8 a count expected)) "result"
      (expected ≡ a <<< count [ZMOD 256]) :=
  (entry_decides ["r"] (by decide) (by decide) (adds_shiftUp a count) (List.Subset.refl _)
    (keys_wires _ _)
    (nodup_rowNames_append (by decide) (by decide) (by decide) (by decide +kernel)) expected).congr
      ofInt_eq_ofInt_iff

theorem shiftDown_decides (expected : Int) :
    Decides (Formula.text (encode .shr 8 a count expected)) "result"
      (expected ≡ (a % 256) >>> count [ZMOD 256]) :=
  (entry_decides ["r"] (by decide) (by decide) (adds_shiftDown a count) (List.Subset.refl _)
    (keys_wires _ _)
    (nodup_rowNames_append (by decide) (by decide) (by decide) (by decide +kernel)) expected).congr
      ofInt_eq_ofInt_iff

end Shifts

/-- The entries of six operations decide them.  Whatever the operands and the expected value are,
and by however many places is shifted, the statement has one solution, and its `result` tells
whether the expected value is right modulo 256. -/
theorem entries_decide (a b expected : Int) (count : Nat) :
    Decides (Formula.text (encode .and 8 a b expected)) "result" (expected ≡ a.land b [ZMOD 256]) ∧
    Decides (Formula.text (encode .or 8 a b expected)) "result" (expected ≡ a.lor b [ZMOD 256]) ∧
    Decides (Formula.text (encode .xor 8 a b expected)) "result" (expected ≡ a.xor b [ZMOD 256]) ∧
    Decides (Formula.text (encode .add 8 a b expected)) "result" (expected ≡ a + b [ZMOD 256]) ∧
    Decides (Formula.text (encode .shl 8 a count expected)) "result"
      (expected ≡ a <<< count [ZMOD 256]) ∧
    Decides (Formula.text (encode .shr 8 a count expected)) "result"
      (expected ≡ (a % 256) >>> count [ZMOD 256]) :=
  ⟨bitwise_decides a b rfl (Int.testBit_land a b) expected,
    bitwise_decides a b rfl (Int.testBit_lor a b) expected,
    bitwise_decides a b rfl (Int.testBit_lxor a b) expected, addition_decides a b expected,
    shiftUp_decides a count expected, shiftDown_decides a count expected⟩

end Lookup

end Zkvm
