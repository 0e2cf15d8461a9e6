import Mathlib.Data.List.Nodup
import Zkvm.Proofs.Circuit.CarryChain

/-!
# Statements with one solution

Clauses that give names their values one after another have one solution: a table of all their
names.  Each part of such a list adds entries to the table of the parts before it.  The text of the
whole list is then solved by one choice of values for its variables, and any variable can be read
off the table.
-/
set_option autoImplicit false

namespace Zkvm

open Circuit (Agrees wires agrees_append agrees_wires mem_keys_wires exists_agrees)

theorem Term.names_joined (connective : Gate) (terms : List Term) :
    (joined connective terms).names = terms.flatMap names := by
  have fold (first : Term) (rest : List Term) :
      (rest.foldl (.gate connective) first).names = first.names ++ rest.flatMap names := by
    induction rest generalizing first with
    | nil => simp
    | cons next more ih => rw [List.foldl_cons, ih, names, List.flatMap_cons, List.append_assoc]
  cases terms with
  | nil => rfl
  | cons first rest => exact fold first rest

namespace Formula

/-! ## The variables of a clause -/

def spelledNames (letters : List Char) : List String :=
  ((runs letters).filter beginsName).map String.ofList

theorem spelledNames_append {separator : Char} (apart : isWordSign separator = false)
    (front back : List Char) :
    spelledNames (front ++ separator :: back) = spelledNames front ++ spelledNames back := by
  rw [spelledNames, runs_append_separator apart, List.filter_append, List.map_append, spelledNames,
    spelledNames]

theorem spelledNames_parentheses (letters : List Char) :
    spelledNames ('(' :: (letters ++ [')'])) = spelledNames letters := by
  have before := spelledNames_append (by decide : isWordSign '(' = false) [] (letters ++ [')'])
  rw [List.nil_append] at before
  rw [before, spelledNames_append (by decide)]
  exact List.append_nil _

theorem runs_word {letters : List Char} (word : ∀ c ∈ letters, isWordSign c = true) :
    runs letters = [letters] := by
  induction letters with
  | nil => rfl
  | cons c rest ih =>
      rw [List.forall_mem_cons] at word
      rw [runs, if_pos word.1, ih word.2]
      rfl

theorem spelledNames_name {name : String} (named : IsName name) :
    spelledNames name.toList = [name] := by
  rw [spelledNames, runs_word named.word, List.filter_cons_of_pos named.begins, List.filter_nil,
    List.map_singleton, String.ofList_toList]

theorem spelledNames_spaced {c : Char} (apart : isWordSign c = false) {rest : List Term}
    (each : ∀ term ∈ rest, spelledNames term.text.toList = term.names) (front : List Char) :
    spelledNames (front ++ rest.flatMap fun term => c :: term.text.toList) =
      spelledNames front ++ rest.flatMap Term.names := by
  induction rest generalizing front with
  | nil => simp
  | cons next more ih =>
      rw [List.forall_mem_cons] at each
      rw [List.flatMap_cons, List.cons_append, spelledNames_append apart, ih each.2, each.1,
        List.flatMap_cons]

theorem spelledNames_text {term : Term} (bracketed : term.Bracketed) :
    spelledNames term.text.toList = term.names := by
  induction bracketed with
  | var named => exact spelledNames_name named
  | bit value => cases value <;> rfl
  | @group connective first rest signed _ _ firstNames restNames =>
      obtain ⟨c, sign⟩ := Option.isSome_iff_exists.mp signed
      have apart : isWordSign c = false := by
        cases connective <;> cases sign <;> decide
      have letters : (Term.group (.joined connective (first :: rest))).text.toList =
          '(' :: ((Term.joined connective (first :: rest)).text.toList ++ [')']) := by
        rw [Term.text, String.toList_append, String.toList_append]
        rfl
      rw [letters, spelledNames_parentheses, text_joined sign, spelledNames_spaced apart restNames,
        firstNames, Term.names, Term.names_joined, List.flatMap_cons]

/-- The variables in the text of a clause are the names of the clause. -/
theorem mem_variableNames_text {clause : Clause} (bracketed : clause.Bracketed) {name : String} :
    name ∈ variableNames clause.text ↔ name ∈ clause.names := by
  have spelled : spelledNames clause.text.toList = clause.names := by
    cases clause with
    | define defined term =>
        rw [toList_define, spelledNames_append (by decide), spelledNames_name bracketed.1,
          spelledNames_text bracketed.2]
        rfl
    | demand term => exact spelledNames_text bracketed
  rw [variableNames, List.mem_dedup, ← spelled, spelledNames]

/-! ## Tables that grow -/

/-- Where the table holds, the clauses hold exactly if the entries of `more` do, and they name
nothing else. -/
structure Adds (table : List (String × Bool)) (clauses : List Clause)
    (more : List (String × Bool)) : Prop where
  bracketed : ∀ clause ∈ clauses, clause.Bracketed
  named : ∀ clause ∈ clauses, ∀ name ∈ clause.names, name ∈ (table ++ more).map Prod.fst
  solutions : ∀ value : Assignment,
    Agrees value table → (holds value clauses = true ↔ Agrees value more)

section Adds
variable {table more rest : List (String × Bool)}

theorem Adds.append {first second : List Clause} (here : Adds table first more)
    (there : Adds (table ++ more) second rest) : Adds table (first ++ second) (more ++ rest) where
  bracketed := List.forall_mem_append.mpr ⟨here.bracketed, there.bracketed⟩
  named := by
    refine List.forall_mem_append.mpr
      ⟨fun clause member name inside => ?_, fun clause member name inside => ?_⟩
    · rw [← List.append_assoc, List.map_append]
      exact List.mem_append_left _ (here.named clause member name inside)
    · rw [← List.append_assoc]
      exact there.named clause member name inside
  solutions value agrees := by
    rw [holds_append, Bool.and_eq_true, here.solutions value agrees, agrees_append]
    refine and_congr_right fun added => there.solutions value ?_
    exact agrees_append.mpr ⟨agrees, added⟩

/-- One definition, whose term has a value in the table. -/
theorem adds_define {name : String} {term : Term} {bit : Bool} (isName : IsName name)
    (bracketed : term.Bracketed) (known : ∀ used ∈ term.names, used ∈ table.map Prod.fst)
    (means : ∀ value : Assignment, Agrees value table → term.eval value = bit) :
    Adds table [.define name term] [(name, bit)] where
  bracketed := List.forall_mem_singleton.mpr ⟨isName, bracketed⟩
  named := by
    refine List.forall_mem_singleton.mpr (List.forall_mem_cons.mpr ⟨?_, fun used inside => ?_⟩)
    · rw [List.map_append]
      exact List.mem_append_right _ (List.mem_singleton_self name)
    · rw [List.map_append]
      exact List.mem_append_left _ (known used inside)
  solutions value agrees := by
    rw [holds_singleton, holds_define, means value agrees, Agrees, List.forall_mem_singleton]

/-- A row of definitions that do not use each other. -/
theorem adds_row {width : Nat} {name : String} {term : Nat → Term} {bits : BitVec width}
    (isName : IsName name) (bracketed : ∀ i < width, (term i).Bracketed)
    (known : ∀ i < width, ∀ used ∈ (term i).names, used ∈ table.map Prod.fst)
    (means : ∀ value : Assignment, Agrees value table → ∀ i < width,
      (term i).eval value = bits.getLsbD i) :
    Adds table ((List.range width).map fun i : Nat => .wire name i (term i)) (wires name bits) where
  bracketed := by
    refine List.forall_mem_map.mpr fun i inside => ?_
    exact Clause.bracketed_wire isName i (bracketed i (List.mem_range.mp inside))
  named := by
    refine List.forall_mem_map.mpr fun i inside =>
      List.forall_mem_cons.mpr ⟨?_, fun used there => ?_⟩
    · rw [List.map_append]
      exact List.mem_append_right _ (mem_keys_wires.mpr ⟨i, List.mem_range.mp inside, rfl⟩)
    · rw [List.map_append]
      exact List.mem_append_left _ (known i (List.mem_range.mp inside) used there)
  solutions value agrees := by
    rw [holds_map, agrees_wires, row_eq_iff]
    refine forall_congr' fun i => ?_
    rw [List.mem_range]
    refine forall_congr' fun inside => ?_
    rw [holds_wire, means value agrees i inside]

/-- Two rows side by side, where a definition may also use the places of the second row before
it. -/
theorem adds_pairs {width : Nat} {first second : String} {firstTerm secondTerm : Nat → Term}
    {x y : BitVec width} (firstName : IsName first) (secondName : IsName second)
    (bracketed : ∀ i < width, (firstTerm i).Bracketed ∧ (secondTerm i).Bracketed)
    (known : ∀ i < width, ∀ used ∈ (firstTerm i).names ++ (secondTerm i).names,
      used ∈ table.map Prod.fst ∨ ∃ j < i, wireName second (j : Nat) = used)
    (means : ∀ value : Assignment, Agrees value table → ∀ i < width,
      (∀ j < i, value (wireName second (j : Nat)) = y.getLsbD j) →
        (firstTerm i).eval value = x.getLsbD i ∧ (secondTerm i).eval value = y.getLsbD i) :
    Adds table ((List.range width).flatMap fun i : Nat =>
      [.wire first i (firstTerm i), .wire second i (secondTerm i)])
      (wires first x ++ wires second y) where
  bracketed := by
    refine List.forall_mem_flatMap.mpr fun i member => ?_
    obtain ⟨here, there⟩ := bracketed i (List.mem_range.mp member)
    exact forall_mem_pair (Clause.bracketed_wire firstName i here)
      (Clause.bracketed_wire secondName i there)
  named := by
    refine List.forall_mem_flatMap.mpr fun i member clause pair name inside => ?_
    rw [List.mem_range] at member
    simp only [List.map_append, List.mem_append, mem_keys_wires]
    have used {name : String} (inside : name ∈ (firstTerm i).names ++ (secondTerm i).names) :
        name ∈ table.map Prod.fst ∨ (∃ j < width, wireName first (j : Nat) = name) ∨
          ∃ j < width, wireName second (j : Nat) = name := by
      rcases known i member name inside with listed | ⟨j, before, same⟩
      · exact .inl listed
      · exact .inr (.inr ⟨j, by omega, same⟩)
    rcases List.mem_pair.mp pair with rfl | rfl
    · rcases List.mem_cons.mp inside with rfl | there
      · exact .inr (.inl ⟨i, member, rfl⟩)
      · exact used (List.mem_append_left _ there)
    · rcases List.mem_cons.mp inside with rfl | there
      · exact .inr (.inr ⟨i, member, rfl⟩)
      · exact used (List.mem_append_right _ there)
  solutions value agrees := by
    rw [holds_flatMap, agrees_append, agrees_wires, agrees_wires, row_eq_iff, row_eq_iff,
      ← forall₂_and]
    simp only [List.mem_range, holds_pair, holds_wire]
    constructor
    · intro clauses i
      -- the second row by induction on the place, and with it the first
      induction i using Nat.strong_induction_on with
      | _ i ih =>
          intro inside
          have terms := means value agrees i inside fun j before => (ih j before (by omega)).2
          rw [← terms.1, ← terms.2]
          exact clauses i inside
    · intro rows i inside
      have terms := means value agrees i inside fun j before => (rows j (by omega)).2
      rw [terms.1, terms.2]
      exact rows i inside

end Adds

/-! ## One solution -/

/-- The text has one solution in its variables, and in it the name is true exactly if `accepted`
holds. -/
structure Decides (text name : String) (accepted : Prop) : Prop where
  solvable : ∃ solution : Assignment, holdsText solution text = true
  unique : ∀ first second : Assignment, holdsText first text = true → holdsText second text = true →
    ∀ place ∈ variableNames text, first place = second place
  mentioned : name ∈ variableNames text
  tells : ∀ solution : Assignment, holdsText solution text = true →
    (solution name = true ↔ accepted)

theorem Decides.congr {text name : String} {accepted other : Prop}
    (decides : Decides text name accepted) (same : accepted ↔ other) : Decides text name other :=
  propext same ▸ decides

/-- A text that decides two things does not tell them apart. -/
theorem Decides.iff {text name : String} {accepted other : Prop}
    (decides : Decides text name accepted) (too : Decides text name other) : accepted ↔ other := by
  obtain ⟨solution, satisfied⟩ := decides.solvable
  exact (decides.tells solution satisfied).symm.trans (too.tells solution satisfied)

theorem Adds.decides {clauses : List Clause} {table : List (String × Bool)}
    (adds : Adds [] clauses table) (distinct : (table.map Prod.fst).Nodup) {name : String}
    {bit : Bool} (listed : (name, bit) ∈ table)
    (mentioned : ∃ clause ∈ clauses, name ∈ clause.names) :
    Decides (text clauses) name (bit = true) := by
  have filled : clauses.map Clause.text ≠ [] := by
    obtain ⟨clause, member, _⟩ := mentioned
    exact List.ne_nil_of_mem (List.mem_map_of_mem member)
  have readable : ∀ line ∈ clauses.map Clause.text, Readable line := by
    refine List.forall_mem_map.mpr fun clause member => ?_
    obtain ⟨term, done, _⟩ := read_clause (adds.bracketed clause member)
    exact ⟨term, done⟩
  have solutions (value : Assignment) :
      holdsText value (text clauses) = true ↔ Agrees value table := by
    rw [text, (holdsText_joinTexts filled readable).2, List.all_map,
      ← adds.solutions value (List.forall_mem_nil _), holds]
    simp only [List.all_eq_true, Function.comp_apply]
    refine forall₂_congr fun clause member => ?_
    rw [holdsText_text (adds.bracketed clause member)]
  have names {place : String} :
      place ∈ variableNames (text clauses) ↔ ∃ clause ∈ clauses, place ∈ clause.names := by
    simp only [text, mem_variableNames_joinTexts, List.mem_map, exists_exists_and_eq_and]
    refine exists_congr fun clause => and_congr_right fun member => ?_
    rw [mem_variableNames_text (adds.bracketed clause member)]
  constructor
  · obtain ⟨solution, agrees⟩ := exists_agrees distinct
    exact ⟨solution, (solutions solution).mpr agrees⟩
  · intro first second here there place inside
    obtain ⟨clause, member, spelled⟩ := names.mp inside
    exact ((solutions first).mp here).congr ((solutions second).mp there)
      (adds.named clause member place spelled)
  · exact names.mpr mentioned
  · intro solution satisfied
    rw [(solutions solution).mp satisfied (name, bit) listed]

end Formula

end Zkvm
