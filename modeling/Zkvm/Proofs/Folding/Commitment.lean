import Mathlib.Data.List.Basic
import Zkvm.Folding.Generator
import Zkvm.Proofs.Text.Quoting

/-!
# What a commitment binds

A commitment is the digest of the letters of some texts one after another.  To commit to a circuit
its inputs, outputs and constraints are taken as they are, so only what they spell together is bound
and not where one ends and the next begins.  For a circuit that folds the noise and the constraints
are written as quoted text, from which both can be read back, and the inputs and outputs are left
out.
-/
set_option autoImplicit false

namespace Zkvm.Folding

/-! ## Bytes of texts -/

def bytesOf (texts : List String) : List UInt8 :=
  texts.flatMap fun text => text.toUTF8.toList

def lettersOf (texts : List String) : List Char :=
  texts.flatMap String.toList

theorem toList_loop (bytes : ByteArray) (remaining i : Nat) (read : List UInt8)
    (left : bytes.size - i ≤ remaining) :
    ByteArray.toList.loop bytes i read = read.reverse ++ bytes.data.toList.drop i := by
  have size : bytes.data.toList.length = bytes.size := by
    rw [Array.length_toList, ByteArray.size_data]
  induction remaining generalizing i read with
  | zero =>
      rw [ByteArray.toList.loop, if_neg (by omega), List.drop_eq_nil_of_le (by omega),
        List.append_nil]
  | succ remaining ih =>
      rw [ByteArray.toList.loop]
      by_cases inside : i < bytes.size
      · have byte : bytes.get! i = bytes.data.toList[i] := by
          rw [ByteArray.get!, getElem!_pos bytes.data i (by simpa using inside),
            Array.getElem_toList]
        have here :
            bytes.data.toList.drop i = bytes.data.toList[i] :: bytes.data.toList.drop (i + 1) :=
          List.drop_eq_getElem_cons (by omega)
        rw [if_pos inside, ih (i + 1) _ (by omega), here, byte, List.reverse_cons,
          List.append_assoc, List.singleton_append]
      · rw [if_neg inside, List.drop_eq_nil_of_le (by omega), List.append_nil]

theorem toList_toUTF8 (text : String) :
    text.toUTF8.toList = text.toList.flatMap String.utf8EncodeChar := by
  rw [ByteArray.toList, toList_loop _ _ 0 [] (Nat.le_refl _), String.toUTF8_eq_toByteArray,
    ← String.utf8Encode_toList, List.utf8Encode, List.toList_data_toByteArray]
  rfl

theorem bytesOf_eq (texts : List String) :
    bytesOf texts = (lettersOf texts).flatMap String.utf8EncodeChar := by
  rw [bytesOf, lettersOf, List.flatMap_assoc]
  exact congrArg (texts.flatMap ·) (funext toList_toUTF8)

theorem bytesOf_eq_iff {texts texts' : List String} :
    bytesOf texts = bytesOf texts' ↔ lettersOf texts = lettersOf texts' := by
  constructor
  · intro same
    rw [bytesOf_eq, bytesOf_eq, ← List.toByteArray_inj, ← List.utf8Encode, ← List.utf8Encode,
      ← String.toByteArray_ofList, ← String.toByteArray_ofList, String.toByteArray_inj] at same
    exact String.ofList_injective same
  · intro same
    rw [bytesOf_eq, bytesOf_eq, same]

/-! ## Records of noise -/

namespace NoiseRecord

theorem fields_injective : Function.Injective fields := by
  intro record record' same
  cases record <;> cases record' <;> simp_all [fields]

def fieldLetters (field : String × Int) : List Char :=
  (Text.quoted field.1).toList ++ [':', ' '] ++ (toString field.2).toList

theorem toList_text (record : NoiseRecord) :
    record.text.toList = '\x7b' :: Text.listed fieldLetters '\x7d' record.fields := by
  have shape : record.text = "\x7b" ++ ", ".intercalate (record.fields.map fun field =>
      Text.quoted field.1 ++ ": " ++ toString field.2) ++ "\x7d" := rfl
  have letters :
      String.toList ∘
        (fun field : String × Int => Text.quoted field.1 ++ ": " ++ toString field.2) =
      fieldLetters := by
    funext field
    simp [fieldLetters]
  rw [shape, String.toList_append, String.toList_append, String.toList_intercalate, List.map_map,
    letters]
  rfl

/-- A record of noise can be told from whatever follows it. -/
theorem told_text : Text.Told fun record : NoiseRecord => record.text.toList := by
  have field : Text.ToldBefore (fun c => c = ',' || c = '\x7d') fieldLetters := by
    refine (Text.ToldBefore.pair Text.told_quoted Text.toldBefore_int [':', ' ']).mono
      fun c ends => ?_
    rcases (Bool.or_eq_true _ _).mp ends with comma | brace
    · rw [of_decide_eq_true comma]
      decide
    · rw [of_decide_eq_true brace]
      decide
  have fields : Text.Told (Text.listed fieldLetters '\x7d') := by
    refine Text.told_listed field (by decide) fun pair => ?_
    rw [fieldLetters, Text.toList_quoted]
    refine ⟨_, _, rfl, ?_⟩
    rcases Text.markOf_cases pair.1 with mark | mark <;> rw [mark] <;> decide
  intro record record' rest rest' same
  dsimp only at same
  rw [toList_text, toList_text] at same
  obtain ⟨alike, rests⟩ := fields (List.cons.inj same).2
  exact ⟨fields_injective alike, rests⟩

end NoiseRecord

/-! ## Circuits -/

namespace Generator

/-- The bytes whose digest is the commitment to a circuit, if there is one. -/
def fed? (circuit : Circuit) : Option (List UInt8) :=
  (committed? circuit).map fun committed => bytesOf committed.2

/-- The commitments are the digests of these bytes, in order. -/
theorem commitments_eq_digests (circuits : List Circuit) :
    (commitments circuits).map Prod.snd =
      (circuits.filterMap fed?).map fun bytes => Text.take 16 (Digest.hex bytes) := by
  have entry (pair : Circuit × Nat) :
      Option.map Prod.snd ((committed? pair.1).map fun committed =>
        (s!"{committed.1}_{pair.2}", hashTexts committed.2)) =
      Option.map (fun bytes => Text.take 16 (Digest.hex bytes)) (fed? pair.1) := by
    rw [fed?, Option.map_map, Option.map_map]
    rfl
  have shape : commitments circuits = circuits.zipIdx.filterMap fun pair =>
      (committed? pair.1).map fun committed =>
        (s!"{committed.1}_{pair.2}", hashTexts committed.2) := rfl
  rw [shape, List.map_filterMap, List.map_filterMap, funext entry, ← List.zipIdx_map_fst 0 circuits,
    List.filterMap_map, List.zipIdx_map_fst]
  rfl

theorem fed?_eq_iff {circuit other : Circuit} {kind kind' : String} {texts texts' : List String}
    (first : committed? circuit = some (kind, texts))
    (second : committed? other = some (kind', texts')) :
    fed? circuit = fed? other ↔ lettersOf texts = lettersOf texts' := by
  rw [fed?, fed?, first, second, Option.map_some, Option.map_some, Option.some.injEq,
    bytesOf_eq_iff]

theorem fed?_commit_iff {circuit other : Circuit} (commits : circuit.operation = .commit)
    (commits' : other.operation = .commit) :
    fed? circuit = fed? other ↔
      lettersOf (circuit.inputs ++ circuit.outputs ++ circuit.constraints) =
        lettersOf (other.inputs ++ other.outputs ++ other.constraints) := by
  apply fed?_eq_iff
  · rw [committed?, commits]
  · rw [committed?, commits']

theorem fed?_fold_iff {circuit other : Circuit} (folds : circuit.operation = .fold)
    (folds' : other.operation = .fold) :
    fed? circuit = fed? other ↔ circuit.noise = other.noise ∧
      circuit.constraints = other.constraints := by
  have texts {circuit : Circuit} (folds : circuit.operation = .fold) :
      committed? circuit =
        some ("fold", [circuit.noise.text, Text.quotedList circuit.constraints]) := by
    rw [committed?, folds]
  rw [fed?_eq_iff (texts folds) (texts folds')]
  simp only [lettersOf, List.flatMap_cons, List.flatMap_nil, List.append_nil]
  constructor
  · intro same
    obtain ⟨noise, lists⟩ := @NoiseRecord.told_text circuit.noise other.noise _ _ same
    exact ⟨noise, Text.told_quotedList.injective lists⟩
  · rintro ⟨noise, constraints⟩
    rw [noise, constraints]

theorem quoted_parts_iff {circuit other : Circuit} :
    bytesOf [Text.quotedList circuit.inputs, Text.quotedList circuit.outputs,
      Text.quotedList circuit.constraints] =
      bytesOf [Text.quotedList other.inputs, Text.quotedList other.outputs,
        Text.quotedList other.constraints] ↔
    circuit.inputs = other.inputs ∧ circuit.outputs = other.outputs ∧
      circuit.constraints = other.constraints := by
  rw [bytesOf_eq_iff]
  simp only [lettersOf, List.flatMap_cons, List.flatMap_nil, List.append_nil]
  constructor
  · intro same
    obtain ⟨inputs, later⟩ := @Text.told_quotedList circuit.inputs other.inputs _ _ same
    obtain ⟨outputs, last⟩ := @Text.told_quotedList circuit.outputs other.outputs _ _ later
    exact ⟨inputs, outputs, Text.told_quotedList.injective last⟩
  · rintro ⟨inputs, outputs, constraints⟩
    rw [inputs, outputs, constraints]

/-- The commitment to a circuit binds what its inputs, outputs and constraints spell together, and
nothing else of them. That to a circuit that folds binds its noise and its constraints, and neither
inputs nor outputs.  Written as quoted lists, inputs, outputs and constraints would all be bound. -/
theorem commitments_bind (circuit other : Circuit) :
    (∀ circuits, (commitments circuits).map Prod.snd =
      (circuits.filterMap fed?).map fun bytes => Text.take 16 (Digest.hex bytes)) ∧
    (circuit.operation = .commit → other.operation = .commit →
      (fed? circuit = fed? other ↔
        lettersOf (circuit.inputs ++ circuit.outputs ++ circuit.constraints) =
          lettersOf (other.inputs ++ other.outputs ++ other.constraints))) ∧
    (circuit.operation = .fold → other.operation = .fold →
      (fed? circuit = fed? other ↔ circuit.noise = other.noise ∧
        circuit.constraints = other.constraints)) ∧
    (bytesOf [Text.quotedList circuit.inputs, Text.quotedList circuit.outputs,
      Text.quotedList circuit.constraints] =
      bytesOf [Text.quotedList other.inputs, Text.quotedList other.outputs,
        Text.quotedList other.constraints] ↔
      circuit.inputs = other.inputs ∧ circuit.outputs = other.outputs ∧
        circuit.constraints = other.constraints) :=
  ⟨commitments_eq_digests, fed?_commit_iff, fed?_fold_iff, quoted_parts_iff⟩

def nodeOver (operation : String) (inputs outputs : List String) : Node :=
  { kind := some "folding", operation, inputs := some inputs, outputs := some outputs,
    seed := some 0 }

/-- Two circuits to commit to that differ in where an input ends, and two that fold different
inputs, are fed alike. -/
theorem different_circuits_fed_alike :
    (∃ circuit other, (({} : Generator).generate {} [nodeOver "COMMIT" ["ab"] ["c"],
        nodeOver "COMMIT" ["a"] ["bc"]]).1.circuits = [circuit, other] ∧
      circuit.operation = .commit ∧ other.operation = .commit ∧
      circuit.inputs ≠ other.inputs ∧ circuit.outputs ≠ other.outputs ∧ fed? circuit = fed? other) ∧
    ∃ circuit other, (({} : Generator).generate {} [nodeOver "FOLD" ["a"] ["c"],
        nodeOver "FOLD" ["b"] ["d"]]).1.circuits = [circuit, other] ∧
      circuit.operation = .fold ∧ other.operation = .fold ∧
      circuit.inputs ≠ other.inputs ∧ circuit.outputs ≠ other.outputs ∧
      fed? circuit = fed? other := by
  refine ⟨⟨_, _, rfl, rfl, rfl, by decide, by decide, ?_⟩,
    ⟨_, _, rfl, rfl, rfl, by decide, by decide, ?_⟩⟩
  · exact (fed?_commit_iff rfl rfl).mpr (by decide)
  · exact (fed?_fold_iff rfl rfl).mpr ⟨rfl, rfl⟩

end Generator

end Zkvm.Folding
