import Zkvm.Circuit.Blueprint
import Zkvm.Proofs.Formula.Blanks
import Zkvm.Proofs.Formula.Numbering

/-!
# Reading the memory of a circuit

A decoder selects one of sixteen words by the four lowest bits of the address, and every bit that is
read is a choice among the bits of all words.  A choice whose text would be too long is cut into two
halves that are joined again.  Cut or not, what is read is the selected word.
-/
set_option autoImplicit false

namespace Zkvm

namespace Term

/-- A disjunction in any spelling is true if one of its terms is. -/
theorem eval_joined_any {connective : Gate} (disjoins : ∀ x y, connective.apply x y = (x || y))
    (value : Assignment) {terms : List Term} (nonempty : terms ≠ []) :
    (joined connective terms).eval value = terms.any fun term => term.eval value := by
  obtain ⟨first, rest, rfl⟩ := List.exists_cons_of_ne_nil nonempty
  change (rest.foldl (.gate connective) first).eval value = _
  clear nonempty
  induction rest generalizing first with
  | nil => simp
  | cons next more ih =>
      rw [List.foldl_cons, ih, List.any_cons, eval, disjoins, List.any_cons, List.any_cons,
        Bool.or_assoc]

theorem length_joined (connective : Gate) (first : Term) (rest : List Term) :
    (joined connective (first :: rest)).text.length =
      first.text.length +
        (rest.map fun term => connective.symbol.length + term.text.length).sum := by
  change (rest.foldl (.gate connective) first).text.length = _
  induction rest generalizing first with
  | nil => rfl
  | cons next more ih =>
      rw [List.foldl_cons, ih, text, String.length_append, String.length_append, List.map_cons,
        List.sum_cons]
      omega

end Term

namespace Formula

theorem holdsText_define_joined {name : String} {connective : Gate} {terms : List Term}
    (named : IsName name) (signed : connective.narrow.sign?.isSome = true) (nonempty : terms ≠ [])
    (filled : ∀ term ∈ terms, term.Filled) (bracketed : ∀ term ∈ terms, term.narrow.Bracketed)
    (value : Assignment) :
    holdsText value (Clause.define name (.group (.joined connective terms))).text = true ↔
      value name = (Term.joined connective terms).eval value := by
  obtain ⟨first, rest, rfl⟩ := List.exists_cons_of_ne_nil nonempty
  obtain ⟨firstFilled, restFilled⟩ := List.forall_mem_cons.mp filled
  obtain ⟨firstBracketed, restBracketed⟩ := List.forall_mem_cons.mp bracketed
  have whole : (Term.group (.joined connective (first :: rest))).narrow.Bracketed := by
    rw [Term.narrow, Term.narrow_joined]
    exact .group signed firstBracketed (List.forall_mem_map.mpr restBracketed)
  exact holdsText_define named (.group (Term.filled_joined connective firstFilled restFilled))
    whole value

end Formula

namespace Circuit.Blueprint

open Formula (IsName holdsText row wireName ofCells)
open Term (wire joined)

/-! ## The decoder -/

theorem filled_wire {word : String} (named : IsName word) (i : Nat) : (wire word i).Filled :=
  .var (named.wire i)

section Matching
variable {word : String}

theorem filled_matching (named : IsName word) (number width : Nat) :
    ∀ term ∈ matching word number width, term.Filled := by
  refine List.forall_mem_map.mpr fun i _ => ?_
  split
  · exact filled_wire named i
  · exact .group (.gate (filled_wire named i) (.bit true))

theorem bracketed_matching (named : IsName word) (number width : Nat) :
    ∀ term ∈ matching word number width, term.narrow.Bracketed := by
  refine List.forall_mem_map.mpr fun i _ => ?_
  split
  · exact Term.bracketed_wire named i
  · exact (Term.bracketed_wire named i).flipped

/-- The terms for the bits of a number are all true if the row has the lowest bits of the number. -/
theorem eval_matching (value : Assignment) (word : String) (number width : Nat) :
    (joined .wideAnd (matching word number width)).eval value =
      decide ((row value word width).toNat = number % 2 ^ width) := by
  have bit (i : Nat) :
      (if Formula.bitOf number i then wire word i else (wire word i).flipped).eval value =
        (value (wireName word i) == number.testBit i) := by
    rw [Formula.bitOf_eq_testBit]
    change (if number.testBit i = true then wire word i else (wire word i).flipped).eval value = _
    cases number.testBit i with
    | true => exact (beq_true _).symm
    | false => exact (Term.eval_flipped _ _).trans (beq_false _).symm
  rw [Term.eval_joined_all fun _ _ => rfl, matching, List.all_map, Bool.eq_iff_iff,
    List.all_eq_true, decide_eq_true_eq, ← BitVec.toNat_ofNat, ← BitVec.toNat_eq,
    Formula.row_eq_iff]
  refine forall_congr' fun i => ?_
  rw [List.mem_range, Function.comp_apply, bit, beq_iff_eq, BitVec.getLsbD_ofNat]
  refine forall_congr' fun inside => ?_
  rw [decide_eq_true inside, Bool.true_and]

end Matching

/-- A selector is true if the address ends with the number of its word. -/
theorem holds_selector (value : Assignment) {i : Nat} (inside : i < memorySize) :
    holdsText value
      (Clause.wire "sel_mem" i (.group (joined .wideAnd (matching "mem_addr" i 4)))).text = true ↔
      value (wireName "sel_mem" i) = decide (i = (row value "mem_addr" 16).toNat % 16) := by
  have low : (row value "mem_addr" 4).toNat = (row value "mem_addr" 16).toNat % 16 := by
    have short : row value "mem_addr" 4 = (row value "mem_addr" 16).setWidth 4 := by
      refine Formula.row_eq_iff.mpr fun i small => ?_
      rw [BitVec.getLsbD_setWidth, decide_eq_true small, Bool.true_and,
        Formula.getLsbD_row _ _ (by omega)]
    rw [short, BitVec.toNat_setWidth]
  have named : IsName "mem_addr" := by decide
  have nonempty : matching "mem_addr" i 4 ≠ [] := List.cons_ne_nil _ _
  refine (Formula.holdsText_define_joined ((by decide : IsName "sel_mem").wire i) rfl nonempty
    (filled_matching named i 4) (bracketed_matching named i 4) value).trans ?_
  rw [eval_matching, low, Nat.mod_eq_of_lt (show i < 2 ^ 4 from inside),
    decide_eq_decide.mpr eq_comm]
  rfl

/-! ## The choice -/

/-- One bit of the words whose selectors are true. -/
def choice (value : Assignment) (bit : Nat) (words : List Nat) : Bool :=
  words.any fun word => value (wireName "sel_mem" word) && value (memoryBit word bit)

theorem isName_memoryBit (word bit : Nat) : IsName (memoryBit word bit) :=
  (by decide : IsName "mem").cell word bit

theorem holds_choice (value : Assignment) {name : String} (named : IsName name) (bit : Nat)
    {words : List Nat} (nonempty : words ≠ []) :
    holdsText value
      (Clause.wire name bit (.group (joined .wideOr (words.map (readPart bit))))).text = true ↔
      value (wireName name bit) = choice value bit words := by
  have selector : IsName "sel_mem" := by decide
  have filled : ∀ term ∈ words.map (readPart bit), term.Filled :=
    List.forall_mem_map.mpr fun word _ =>
      .group (.gate (filled_wire selector word) (.var (isName_memoryBit word bit)))
  have bracketed : ∀ term ∈ words.map (readPart bit), term.narrow.Bracketed :=
    List.forall_mem_map.mpr fun word _ =>
      .pair rfl (Term.bracketed_wire selector word) (.var (isName_memoryBit word bit))
  refine (Formula.holdsText_define_joined (named.wire bit) rfl (by simpa using nonempty) filled
    bracketed value).trans ?_
  rw [Term.eval_joined_any (fun _ _ => rfl) value (by simpa using nonempty), List.any_map]
  rfl

def lowWords : List Nat :=
  List.range 8

def highWords : List Nat :=
  List.range' 8 8

theorem choice_halves (value : Assignment) (bit : Nat) :
    (choice value bit lowWords || choice value bit highWords) =
      choice value bit (List.range memorySize) :=
  List.any_append.symm

/-- If one word is selected, its bit is chosen where it is among the words. -/
theorem choice_selected {value : Assignment} {selected : Nat} {words : List Nat}
    (one : ∀ word ∈ words, value (wireName "sel_mem" word) = decide (word = selected)) (bit : Nat) :
    choice value bit words = (decide (selected ∈ words) && value (memoryBit selected bit)) := by
  rw [Bool.eq_iff_iff, choice, List.any_eq_true, Bool.and_eq_true, decide_eq_true_eq]
  constructor
  · rintro ⟨word, member, both⟩
    rw [one word member, Bool.and_eq_true, decide_eq_true_eq] at both
    obtain ⟨rfl, bit⟩ := both
    exact ⟨member, bit⟩
  · rintro ⟨member, bit⟩
    refine ⟨selected, member, ?_⟩
    rw [one selected member, decide_eq_true rfl, bit]
    rfl

/-! ## The length of a choice -/

theorem length_readPart (bit word : Nat) :
    (readPart bit word).text.length = 14 + 2 * word.repr.length + bit.repr.length := by
  have text : (readPart bit word).text =
      "(" ++ (("sel_mem" ++ word.repr) ++ "&" ++ ("mem" ++ word.repr ++ "_" ++ bit.repr)) ++ ")" :=
    rfl
  simp only [text, String.length_append]
  change 1 + (7 + _ + 1 + (3 + _ + 1 + _)) + 1 = _
  omega

theorem length_choice (bit : Nat) :
    (joined .wideOr ((List.range memorySize).map (readPart bit))).text.length =
      313 + 16 * bit.repr.length := by
  have shape : (List.range memorySize).map (readPart bit) =
      readPart bit 0 :: (List.range' 1 15).map (readPart bit) := rfl
  have each (word : Nat) : Gate.wideOr.symbol.length + (readPart bit word).text.length =
      (17 + 2 * word.repr.length) + bit.repr.length := by
    rw [length_readPart]
    change 3 + _ = _
    omega
  have numerals :
      ((List.range' 1 15).map fun word => 17 + 2 * word.repr.length).sum = 297 := by decide
  rw [shape, Term.length_joined, List.map_map]
  simp only [Function.comp_def, each, List.sum_map_add, numerals, List.map_const',
    List.sum_replicate, List.length_range', smul_eq_mul]
  rw [length_readPart, show (Nat.repr 0).length = 1 from rfl]
  omega

/-- The text of a choice is too long exactly for the bits whose numbers have more than seventeen
digits. -/
theorem long_choice_iff (bit : Nat) :
    600 < (joined .wideOr ((List.range memorySize).map (readPart bit))).text.length ↔
      10 ^ 17 ≤ bit := by
  have digits : bit.repr.length ≤ 17 ↔ bit < 10 ^ 17 := Nat.length_repr_le_iff (by decide)
  rw [length_choice]
  omega

/-! ## One bit -/

/-- The names that are defined for one bit: three if the choice is cut. -/
theorem defined_readBit (wordSize : Int) (bit : Nat) :
    (readBit wordSize bit).map (fun wired => wired.clause.defined?) =
      if 10 ^ 17 ≤ bit then [some (wireName "read_low" bit), some (wireName "read_high" bit),
        some (wireName "mem_data_out" bit)]
      else [some (wireName "mem_data_out" bit)] := by
  simp only [readBit, gt_iff_lt, long_choice_iff]
  split
  · rfl
  · rfl

/-- Cut or not, a bit that is read is the choice among all words. -/
theorem holds_readBit (value : Assignment) (wordSize : Int) (bit : Nat) :
    (∀ wired ∈ readBit wordSize bit, holdsText value wired.clause.text = true) ↔
      (10 ^ 17 ≤ bit → value (wireName "read_low" bit) = choice value bit lowWords ∧
        value (wireName "read_high" bit) = choice value bit highWords) ∧
      value (wireName "mem_data_out" bit) = choice value bit (List.range memorySize) := by
  have output : IsName "mem_data_out" := by decide
  simp only [readBit, gt_iff_lt, long_choice_iff]
  split
  · rename_i long
    have low := holds_choice value (by decide : IsName "read_low") bit (by decide : lowWords ≠ [])
    have high :=
      holds_choice value (by decide : IsName "read_high") bit (by decide : highWords ≠ [])
    have joins : holdsText value
        (Clause.wire "mem_data_out" bit
          (.group (wire "read_low" bit ||| wire "read_high" bit))).text = true ↔
        value (wireName "mem_data_out" bit) =
          (value (wireName "read_low" bit) || value (wireName "read_high" bit)) := by
      have bracketed : (Term.group (wire "read_low" bit ||| wire "read_high" bit)).Bracketed :=
        .pair rfl (Term.bracketed_wire (by decide) bit) (Term.bracketed_wire (by decide) bit)
      rw [Formula.holdsText_text (Clause.bracketed_wire output bit bracketed), Formula.holds_wire]
      rfl
    rw [List.forall_mem_cons, List.forall_mem_cons, List.forall_mem_singleton, joins,
      ← choice_halves, forall_prop_of_true long]
    refine (and_congr low (and_congr_left' high)).trans ⟨?_, ?_⟩
    · rintro ⟨isLow, isHigh, joined⟩
      rw [isLow, isHigh] at joined
      exact ⟨⟨isLow, isHigh⟩, joined⟩
    · rintro ⟨⟨isLow, isHigh⟩, chosen⟩
      rw [isLow, isHigh]
      exact ⟨rfl, rfl, chosen⟩
  · rename_i short
    rw [List.forall_mem_singleton, holds_choice value output bit (by decide)]
    exact (and_iff_right fun long => absurd long short).symm

/-! ## All words -/

/-- An address and the contents of all words, in an assignment that satisfies the constraints of the
memory. -/
structure Reads {wordSize : Nat} (address : BitVec 16) (words : Nat → BitVec wordSize)
    (value : Assignment) : Prop where
  addressed : row value "mem_addr" 16 = address
  stored : ∀ i < memorySize, ∀ j < wordSize, value (memoryBit i j) = (words i).getLsbD j
  satisfied : ∀ constraint ∈ (memory wordSize).constraints,
    holdsText value constraint.expression = true

theorem holds_memory (value : Assignment) (wordSize : Nat) :
    (∀ constraint ∈ (memory wordSize).constraints, holdsText value constraint.expression = true) ↔
      (∀ i < memorySize,
        value (wireName "sel_mem" i) = decide (i = (row value "mem_addr" 16).toNat % 16)) ∧
      ∀ j < wordSize, ∀ wired ∈ readBit wordSize j, holdsText value wired.clause.text = true := by
  rw [memory, moduleOf, List.forall_mem_map, memoryWired, List.forall_mem_append,
    List.forall_mem_map, List.forall_mem_flatMap]
  refine and_congr (forall_congr' fun i => ?_)
    (forall_congr' fun j => imp_congr_left List.mem_range)
  rw [List.mem_range]
  exact forall_congr' fun inside => holds_selector value inside

section Reads
variable {wordSize : Nat} {address : BitVec 16} {words : Nat → BitVec wordSize} {value : Assignment}

theorem Reads.selects (reads : Reads address words value) {i : Nat} (inside : i < memorySize) :
    value (wireName "sel_mem" i) = decide (i = address.toNat % 16) := by
  rw [← reads.addressed]
  exact ((holds_memory value wordSize).mp reads.satisfied).1 i inside

theorem Reads.output (reads : Reads address words value) {j : Nat} (inside : j < wordSize) :
    value (wireName "mem_data_out" j) = value (memoryBit (address.toNat % 16) j) := by
  have chosen := ((holds_readBit value wordSize j).mp
    (((holds_memory value wordSize).mp reads.satisfied).2 j inside)).2
  have listed : address.toNat % 16 ∈ List.range memorySize :=
    List.mem_range.mpr (Nat.mod_lt _ (by decide))
  rw [chosen, choice_selected fun i member => reads.selects (List.mem_range.mp member),
    decide_eq_true listed, Bool.true_and]

end Reads

/-! ## An assignment -/

section Cells
variable {wordSize : Nat} (address : BitVec 16) (words : Nat → BitVec wordSize)

def memoryCells (word : String) (n i : Nat) : Bool :=
  let selected := address.toNat % 16
  if word = "mem_addr" then address.getLsbD n
  else if word = "mem" then (words n).getLsbD i
  else if word = "sel_mem" then decide (n = selected)
  else if word = "mem_data_out" then (words selected).getLsbD n
  else if word = "read_low" then decide (selected ∈ lowWords) && (words selected).getLsbD n
  else if word = "read_high" then decide (selected ∈ highWords) && (words selected).getLsbD n
  else false

theorem memoryCells_wire {word : String} (wordy : Formula.Wordy word) (n : Nat) :
    ofCells (memoryCells address words) (wireName word n) = memoryCells address words word n 0 :=
  Formula.ofCells_wireName wordy n _

theorem memoryCells_stored (i j : Nat) :
    ofCells (memoryCells address words) (memoryBit i j) = (words i).getLsbD j :=
  Formula.ofCells_cell (by decide : Formula.Wordy "mem") i j _

theorem memoryCells_address : row (ofCells (memoryCells address words)) "mem_addr" 16 = address :=
  Formula.row_eq_iff.mpr fun i _ => memoryCells_wire address words (by decide) i

theorem memoryCells_choice (bit : Nat) (list : List Nat) :
    choice (ofCells (memoryCells address words)) bit list =
      (decide (address.toNat % 16 ∈ list) && (words (address.toNat % 16)).getLsbD bit) := by
  rw [choice_selected fun i _ => memoryCells_wire address words (by decide) i, memoryCells_stored]

theorem reads_memoryCells : Reads address words (ofCells (memoryCells address words)) where
  addressed := memoryCells_address address words
  stored i _ j _ := memoryCells_stored address words i j
  satisfied := by
    have listed : address.toNat % 16 ∈ List.range memorySize :=
      List.mem_range.mpr (Nat.mod_lt _ (by decide))
    refine (holds_memory _ wordSize).mpr
      ⟨fun i _ => ?_, fun j _ => (holds_readBit _ wordSize j).mpr ⟨fun _ => ?_, ?_⟩⟩
    · rw [memoryCells_address, memoryCells_wire _ _ (by decide)]
      rfl
    · rw [memoryCells_choice, memoryCells_choice, memoryCells_wire _ _ (by decide),
        memoryCells_wire _ _ (by decide)]
      exact ⟨rfl, rfl⟩
    · rw [memoryCells_choice, memoryCells_wire _ _ (by decide), decide_eq_true listed,
        Bool.true_and]
      rfl

end Cells

/-- The memory returns the addressed word, whatever the size of the words: every address and all
contents can be given, and then one selector is true, that of the address modulo sixteen, and the
bits that are read are those of its word. This is so for the bits whose choice is cut into two
halves, those with a number of more than seventeen digits, and for the others. -/
theorem memory_returns_addressed (wordSize : Nat) (address : BitVec 16)
    (words : Nat → BitVec wordSize) :
    (∃ value, Reads address words value) ∧
    (∀ value, Reads address words value →
      (∀ i < memorySize, value (wireName "sel_mem" i) = decide (i = address.toNat % 16)) ∧
      ∀ j < wordSize, value (wireName "mem_data_out" j) =
        value (memoryBit (address.toNat % 16) j)) ∧
    ∀ j, (readBit wordSize j).map (fun wired => wired.clause.defined?) =
      if 10 ^ 17 ≤ j then [some (wireName "read_low" j), some (wireName "read_high" j),
        some (wireName "mem_data_out" j)]
      else [some (wireName "mem_data_out" j)] := by
  refine ⟨⟨_, reads_memoryCells address words⟩, fun value reads => ⟨?_, ?_⟩,
    defined_readBit wordSize⟩
  · exact fun i inside => reads.selects inside
  · exact fun j inside => reads.output inside

end Circuit.Blueprint

end Zkvm
