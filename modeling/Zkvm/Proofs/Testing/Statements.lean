import Zkvm.Proofs.Text.Digits
import Zkvm.Testing.Case
import Zkvm.Text.Search

/-!
# Statements of a test case

The constraints of a test case fill statements one after another.  Nothing is lost and nothing is
added, and no statement of two or more constraints is too long.  But the first statement is closed
before anything is in it if the first constraint nearly fills a statement alone.
-/
set_option autoImplicit false

namespace Zkvm.Testing

open Formula (joinTexts)

/-- Statements that make up a text and whose constraints are, one after another, the given ones,
where a statement of two or more constraints has an expression of at most 650 characters. -/
structure Splits (constraints : List String) (text : String) (groups : List (List String)) :
    Prop where
  spelled : text =
    "\n\n".intercalate (groups.map fun group => "solve " ++ " && ".intercalate group ++ "\nquit")
  whole : groups.flatten = constraints
  short : ∀ group ∈ groups, 2 ≤ group.length → (" && ".intercalate group).length ≤ 650

/-- The constraints are too long for one statement, and the first one leaves fewer than ten
characters. -/
def LongStart (constraints : List String) : Prop :=
  650 < (" && ".intercalate constraints).length ∧ ∃ first ∈ constraints.head?, 640 < first.length

/-! ## Filling -/

theorem length_joinTexts_concat (current : List String) (constraint : String) :
    (joinTexts (current ++ [constraint])).length ≤
      (joinTexts current).length + 4 + constraint.length := by
  have four : (" && " : String).length = 4 := rfl
  cases current with
  | nil =>
      rw [List.nil_append, joinTexts, String.intercalate_singleton]
      omega
  | cons first rest =>
      have whole := Text.length_intercalate " && " (List.concat_ne_nil constraint (first :: rest))
      have before := Text.length_intercalate " && " (List.cons_ne_nil first rest)
      rw [List.map_append, List.sum_append, ← before, List.map_singleton,
        List.sum_singleton] at whole
      rw [joinTexts, joinTexts]
      omega

section Filling
variable {current : List String} {length : Nat}

theorem flatten_splitFrom (current : List String) (length : Nat) (rest : List String) :
    (splitFrom current length rest).flatten = current ++ rest := by
  induction rest generalizing current length with
  | nil =>
      rw [splitFrom]
      split
      · rename_i empty
        rw [List.isEmpty_iff.mp empty]
        rfl
      · simp
  | cons constraint rest ih =>
      rw [splitFrom]
      split
      · rw [List.flatten_cons, ih]
        rfl
      · rw [ih, List.append_assoc]
        rfl

/-- The length that is counted is not below that of the statement that is being filled. -/
structure Counted (current : List String) (length : Nat) : Prop where
  counted : (joinTexts current).length ≤ length
  short : 2 ≤ current.length → (joinTexts current).length ≤ maxLength

theorem counted_single (constraint : String) : Counted [constraint] constraint.length where
  counted := Nat.le_of_eq (by rw [joinTexts, String.intercalate_singleton])
  short two := absurd two (Nat.not_succ_le_self 1)

theorem Counted.push (counts : Counted current length) {constraint : String}
    (fits : ¬ maxLength < length + constraint.length + 10) :
    Counted (current ++ [constraint]) (length + constraint.length + 4) := by
  have longer := length_joinTexts_concat current constraint
  have counted := counts.counted
  exact ⟨by omega, fun _ => by omega⟩

theorem short_splitFrom (counts : Counted current length) (rest : List String) :
    ∀ group ∈ splitFrom current length rest,
      2 ≤ group.length → (joinTexts group).length ≤ maxLength := by
  induction rest generalizing current length with
  | nil =>
      rw [splitFrom]
      split
      · exact List.forall_mem_nil _
      · exact List.forall_mem_singleton.mpr counts.short
  | cons constraint rest ih =>
      rw [splitFrom]
      split
      · exact List.forall_mem_cons.mpr ⟨counts.short, ih (counted_single constraint)⟩
      · rename_i fits
        exact ih (counts.push fits)

/-- A statement that has begun is not empty, nor is any later one. -/
theorem ne_nil_of_mem_splitFrom (begun : current ≠ []) (rest : List String) :
    ∀ group ∈ splitFrom current length rest, group ≠ [] := by
  induction rest generalizing current length with
  | nil =>
      rw [splitFrom, if_neg (by simpa using begun)]
      exact List.forall_mem_singleton.mpr begun
  | cons constraint rest ih =>
      rw [splitFrom]
      split
      · exact List.forall_mem_cons.mpr ⟨begun, ih (List.cons_ne_nil _ _)⟩
      · exact ih (by simp)

end Filling

/-! ## All statements -/

theorem splits_statements (constraints : List String) :
    Splits constraints (statementsText (statements constraints)) (statements constraints) where
  spelled := rfl
  whole := by
    rw [statements]
    split
    · exact flatten_splitFrom [] 0 constraints
    · exact List.flatten_singleton
  short := by
    rw [statements]
    split
    · exact short_splitFrom ⟨Nat.le_refl 0, fun two => absurd two (by decide)⟩ constraints
    · rename_i fits
      exact List.forall_mem_singleton.mpr fun _ => Nat.not_lt.mp fits

/-- The first statement is empty exactly if the first constraint nearly fills a statement alone; the
others never are. -/
theorem statements_cases {constraints : List String} (given : constraints ≠ []) :
    (LongStart constraints ∧ ∃ later, statements constraints = [] :: later ∧ ∀ group ∈ later,
      group ≠ []) ∨
      (¬ LongStart constraints ∧ ∀ group ∈ statements constraints, group ≠ []) := by
  obtain ⟨first, rest, rfl⟩ := List.exists_cons_of_ne_nil given
  have start : LongStart (first :: rest) ↔
      maxLength < (joinTexts (first :: rest)).length ∧ 640 < first.length := by
    simp [LongStart, joinTexts, maxLength]
  rw [start, statements]
  by_cases long : maxLength < (joinTexts (first :: rest)).length
  · rw [if_pos long, splitFrom]
    by_cases full : 640 < first.length
    · rw [if_pos (show maxLength < 0 + first.length + 10 by unfold maxLength; omega)]
      exact .inl ⟨⟨long, full⟩, _, rfl, ne_nil_of_mem_splitFrom (List.cons_ne_nil _ _) rest⟩
    · rw [if_neg (show ¬ maxLength < 0 + first.length + 10 by unfold maxLength; omega)]
      exact .inr ⟨fun both => full both.2, ne_nil_of_mem_splitFrom (List.cons_ne_nil _ _) rest⟩
  · rw [if_neg long]
    exact .inr ⟨fun both => long both.1, List.forall_mem_singleton.mpr given⟩

/-! ## Lengths -/

/-- The characters of constraints, with four for each that join it to the next. -/
def weight (constraints : List String) : Nat :=
  (constraints.map fun constraint => constraint.length + 4).sum

theorem weight_flatten {groups : List (List String)} (filled : ∀ group ∈ groups, group ≠ []) :
    (groups.map fun group => (joinTexts group).length + 13).sum =
      weight groups.flatten + 9 * groups.length := by
  induction groups with
  | nil => rfl
  | cons group rest ih =>
      obtain ⟨here, there⟩ := List.forall_mem_cons.mp filled
      have own : (joinTexts group).length + 4 = weight group := Text.length_intercalate " && " here
      have sum : weight (group ++ rest.flatten) = weight group + weight rest.flatten := by
        rw [weight, List.map_append, List.sum_append, weight, weight]
      rw [List.map_cons, List.sum_cons, ih there, List.flatten_cons, List.length_cons, sum, ← own]
      omega

theorem length_statementsText {groups : List (List String)} (nonempty : groups ≠ []) :
    (statementsText groups).length + 2 =
      (groups.map fun group => (joinTexts group).length + 13).sum := by
  have two : ("\n\n" : String).length = 2 := rfl
  have each (group : List String) :
      (statementText group).length + 2 = (joinTexts group).length + 13 := by
    change ("solve " ++ joinTexts group ++ "\nquit").length + 2 = _
    rw [String.length_append, String.length_append]
    change 6 + _ + 5 + 2 = _
    omega
  have joined :=
    Text.length_intercalate "\n\n" (by simpa using nonempty : groups.map statementText ≠ [])
  rw [two, List.map_map] at joined
  refine joined.trans (congrArg List.sum (List.map_congr_left fun group _ => each group))

/-- An empty statement can be told from the length of the text: no statements that all have
constraints make up the same text. -/
theorem not_splits_of_empty {constraints : List String} {later groups : List (List String)}
    (whole : later.flatten = constraints) (filled : ∀ group ∈ later, group ≠ [])
    (splits : Splits constraints (statementsText ([] :: later)) groups) (given : constraints ≠ []) :
    ¬ ∀ group ∈ groups, group ≠ [] := by
  intro filledToo
  have nonempty : groups ≠ [] := by
    rintro rfl
    exact given splits.whole.symm
  have before := length_statementsText (List.cons_ne_nil [] later)
  have after : (statementsText ([] :: later)).length + 2 = _ :=
    (congrArg (fun text : String => text.length + 2) splits.spelled).trans
      (length_statementsText nonempty)
  rw [List.map_cons, List.sum_cons, weight_flatten filled, whole] at before
  rw [weight_flatten filledToo, splits.whole, before] at after
  -- Every statement counts nine characters besides its constraints, but an empty one counts
  -- thirteen.
  have empty : (joinTexts []).length = 0 := rfl
  omega

/-! ## Test cases -/

theorem valueConstraints_ne_nil (name : String) (value : Json) :
    valueConstraints name value ≠ [] := by
  cases value with
  | int v =>
      intro none
      have length := congrArg List.length none
      rw [valueConstraints, List.length_map, List.length_zipIdx, digits, padEight,
        List.length_append, List.length_replicate, List.length_nil] at length
      omega
  | null | bool | float | str | arr | obj => exact List.cons_ne_nil _ _

theorem Case.constraints_ne_nil {test : Case} (given : test.inputs ≠ [] ∨ test.expected ≠ []) :
    test.constraints ≠ [] := by
  intro none
  obtain ⟨inputs, expected⟩ := List.append_eq_nil_iff.mp none
  rcases given with input | output
  · obtain ⟨entry, rest, shape⟩ := List.exists_cons_of_ne_nil input
    rw [shape, List.flatMap_cons, List.append_eq_nil_iff] at inputs
    exact valueConstraints_ne_nil _ _ inputs.1
  · obtain ⟨entry, rest, shape⟩ := List.exists_cons_of_ne_nil output
    rw [shape, List.flatMap_cons, List.append_eq_nil_iff] at expected
    exact valueConstraints_ne_nil _ _ expected.1

/-- Splitting loses nothing and adds nothing: the text of a test case consists of statements with
its constraints in order, and of these only the first can be empty.  All of them have constraints,
for this or any other way to read the text, exactly if the first constraint does not nearly fill a
statement of a text that is split. -/
theorem text_split (test : Case) (given : test.inputs ≠ [] ∨ test.expected ≠ []) :
    (∃ groups, Splits test.constraints test.text groups ∧ ∀ group ∈ groups.tail, group ≠ []) ∧
    ((∃ groups, Splits test.constraints test.text groups ∧ ∀ group ∈ groups, group ≠ []) ↔
      ¬ LongStart test.constraints) := by
  have constrained := Case.constraints_ne_nil given
  have splits := splits_statements test.constraints
  rcases statements_cases constrained with ⟨long, later, shape, filled⟩ | ⟨short, filled⟩
  · have whole := splits.whole
    rw [shape, List.flatten_cons, List.nil_append] at whole
    refine ⟨⟨_, splits, ?_⟩, ?_, fun short => absurd long short⟩
    · rw [shape]
      exact filled
    · rintro ⟨groups, other, all⟩
      rw [Case.text, shape] at other
      exact absurd all (not_splits_of_empty whole filled other constrained)
  · exact ⟨⟨_, splits, fun group member => filled group (List.mem_of_mem_tail member)⟩,
      fun _ => short, fun _ => ⟨_, splits, filled⟩⟩

/-- Two texts of four hundred letters, an input and an expected output, which do not fit in one
statement. -/
def twoTexts : Case :=
  { name := "t", description := "", instruction := "",
    inputs := [("x", .str (Text.repeated 400 'a'))], expected :=
      [("y", .str (Text.repeated 400 'b'))] }

theorem length_append_repeated (front : String) (count : Nat) (c : Char) :
    (front ++ Text.repeated count c).length = front.length + count := by
  rw [String.length_append, Text.repeated, String.length_ofList, List.length_replicate]

theorem text_split_two : (twoTexts.inputs ≠ [] ∨ twoTexts.expected ≠ []) ∧
    650 < (" && ".intercalate twoTexts.constraints).length ∧
    ∃ groups, Splits twoTexts.constraints twoTexts.text groups ∧ ∀ group ∈ groups, group ≠ [] := by
  have given : twoTexts.inputs ≠ [] ∨ twoTexts.expected ≠ [] := .inl (List.cons_ne_nil _ _)
  have shape : twoTexts.constraints =
      ["x = " ++ Text.repeated 400 'a', "y_out = " ++ Text.repeated 400 'b'] := rfl
  have first : ("x = " ++ Text.repeated 400 'a').length = 404 := length_append_repeated _ _ _
  have second : ("y_out = " ++ Text.repeated 400 'b').length = 408 := length_append_repeated _ _ _
  refine ⟨given, ?_, (text_split twoTexts given).2.mpr ?_⟩
  · have whole := Text.length_intercalate " && " (Case.constraints_ne_nil given)
    rw [shape, List.map_cons, List.map_singleton, List.sum_cons, List.sum_singleton, first,
      second] at whole
    rw [shape]
    omega
  · rintro ⟨_, start, head, long⟩
    rw [shape, List.head?_cons, Option.mem_some_iff] at head
    rw [← head, first] at long
    omega

def longText : Case :=
  { name := "t", description := "", instruction := "",
    inputs := [("x", .str (Text.repeated 700 'a'))], expected := [] }

theorem statements_single {constraint : String} (long : 650 < constraint.length) :
    statements [constraint] = [[], [constraint]] := by
  have whole : maxLength < (joinTexts [constraint]).length := by
    rwa [joinTexts, String.intercalate_singleton]
  rw [statements, if_pos whole, splitFrom,
    if_pos (show maxLength < 0 + constraint.length + 10 by unfold maxLength; omega), splitFrom]
  rfl

theorem longText_begins_empty :
    longText.text = "solve \nquit\n\nsolve x = " ++ Text.repeated 700 'a' ++ "\nquit" ∧
      ¬ ∃ groups, Splits longText.constraints longText.text groups ∧ ∀ group ∈ groups,
        group ≠ [] := by
  have shape : longText.constraints = ["x = " ++ Text.repeated 700 'a'] := rfl
  have long : 650 < ("x = " ++ Text.repeated 700 'a').length := by
    rw [length_append_repeated]
    decide
  have text : longText.text = statementsText [[], ["x = " ++ Text.repeated 700 'a']] := by
    rw [Case.text, shape, statements_single long]
  refine ⟨?_, ?_⟩
  · rw [text, statementsText, List.map_cons, List.map_singleton, String.intercalate_cons_cons,
      String.intercalate_singleton]
    change "solve \nquit" ++ "\n\n" ++
      ("solve " ++ ("x = " ++ Text.repeated 700 'a') ++ "\nquit") = _
    simp only [← String.append_assoc]
    rfl
  · rintro ⟨groups, splits, filled⟩
    rw [text] at splits
    refine not_splits_of_empty ?_ ?_ splits ?_ filled
    · exact List.flatten_singleton
    · exact List.forall_mem_singleton.mpr (List.cons_ne_nil _ _)
    · exact List.cons_ne_nil _ _

end Zkvm.Testing
