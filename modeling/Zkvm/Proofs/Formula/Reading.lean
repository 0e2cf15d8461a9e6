import Mathlib.Data.List.Dedup
import Zkvm.Circuit.Grouping
import Zkvm.Formula.Basic

/-!
# Reading formulas

A text is read as words and signs, and these as a term.  The signs bind, from the loosest, in the
order `&&`, `=`, `|`, `+`, `&` and the stroke; parentheses hold a formula of any kind.  A formula
and another that are joined by ` && ` are read as the conjunction of what each is read as.
-/
set_option autoImplicit false

namespace Zkvm

namespace Term

def names : Term → List String
  | .var name => [name]
  | .bit _ => []
  | .nothing => []
  | .neg inner => inner.names
  | .gate _ left right => left.names ++ right.names
  | .group inner => inner.names

theorem eval_congr {first second : Assignment} {term : Term}
    (same : ∀ name ∈ term.names, first name = second name) :
    term.eval first = term.eval second := by
  induction term with
  | var name => exact same name (List.mem_singleton_self name)
  | bit value => rfl
  | nothing => rfl
  | neg inner ih => rw [eval, eval, ih same]
  | gate connective left right leftIh rightIh =>
      rw [names] at same
      rw [eval, eval, leftIh fun name member => same name (List.mem_append_left _ member),
        rightIh fun name member => same name (List.mem_append_right _ member)]
  | group inner ih => exact ih same

theorem eval_joined_all {connective : Gate} (conjoins : ∀ x y, connective.apply x y = (x && y))
    (value : Assignment) (terms : List Term) :
    (joined connective terms).eval value = terms.all fun term => term.eval value := by
  have fold (first : Term) (rest : List Term) : (rest.foldl (.gate connective) first).eval value =
      (first.eval value && rest.all fun term => term.eval value) := by
    induction rest generalizing first with
    | nil => simp
    | cons next more ih => rw [List.foldl_cons, ih, eval, conjoins, List.all_cons, Bool.and_assoc]
  cases terms with
  | nil => rfl
  | cons first rest => exact fold first rest

theorem eval_joined_both (value : Assignment) (terms : List Term) :
    (joined .both terms).eval value = terms.all fun term => term.eval value :=
  eval_joined_all (fun _ _ => rfl) value terms

end Term

namespace Formula

open Circuit (isLetter isDigit)

/-! ## Variables of a text -/

def isWordSign (c : Char) : Bool :=
  isLetter c || isDigit c || c == '_'

/-- The longest runs of letters, digits and underscores; between two other signs there is an empty
one. -/
def runs : List Char → List (List Char)
  | [] => [[]]
  | c :: rest => if isWordSign c then (runs rest).modifyHead (c :: ·) else [] :: runs rest

def beginsName : List Char → Bool
  | [] => false
  | c :: _ => isLetter c || c == '_'

def variableNames (text : String) : List String :=
  (((runs text.toList).filter beginsName).map String.ofList).dedup

theorem mem_variableNames {text name : String} :
    name ∈ variableNames text ↔ ∃ run ∈ runs text.toList,
      beginsName run = true ∧ String.ofList run = name := by
  simp only [variableNames, List.mem_dedup, List.mem_map, List.mem_filter, and_assoc]

theorem nodup_variableNames (text : String) : (variableNames text).Nodup :=
  List.nodup_dedup _

theorem exists_runs (letters : List Char) : ∃ first rest, runs letters = first :: rest := by
  induction letters with
  | nil => exact ⟨[], [], rfl⟩
  | cons c rest ih =>
      obtain ⟨first, more, shape⟩ := ih
      rw [runs, shape]
      split
      · exact ⟨c :: first, more, rfl⟩
      · exact ⟨[], first :: more, rfl⟩

theorem runs_append_separator {separator : Char} (apart : isWordSign separator = false)
    (front back : List Char) :
    runs (front ++ separator :: back) = runs front ++ runs back := by
  induction front with
  | nil => simp [runs, apart]
  | cons c rest ih =>
      obtain ⟨first, more, shape⟩ := exists_runs rest
      rw [List.cons_append, runs, runs, ih, shape]
      split <;> rfl

theorem mem_variableNames_join {first second name : String} :
    name ∈ variableNames (first ++ " && " ++ second) ↔
      name ∈ variableNames first ∨ name ∈ variableNames second := by
  have letters : (first ++ " && " ++ second).toList =
      first.toList ++ ' ' :: ([] ++ '&' :: ([] ++ '&' :: ([] ++ ' ' :: second.toList))) := by
    simp [String.toList_append]
  have parts : runs (first ++ " && " ++ second).toList =
      runs first.toList ++ ([[], [], []] ++ runs second.toList) := by
    rw [letters, runs_append_separator (by decide), runs_append_separator (by decide),
      runs_append_separator (by decide), runs_append_separator (by decide)]
    rfl
  simp only [mem_variableNames, parts, List.mem_append]
  constructor
  · rintro ⟨run, member | member | member, begins, rfl⟩
    · exact Or.inl ⟨run, member, begins, rfl⟩
    · have empty : run = [] := by simpa using member
      rw [empty] at begins
      cases begins
    · exact Or.inr ⟨run, member, begins, rfl⟩
  · rintro (⟨run, member, named⟩ | ⟨run, member, named⟩)
    · exact ⟨run, Or.inl member, named⟩
    · exact ⟨run, Or.inr (Or.inr member), named⟩

theorem mem_variableNames_joinTexts {texts : List String} {name : String} :
    name ∈ variableNames (joinTexts texts) ↔ ∃ text ∈ texts, name ∈ variableNames text := by
  induction texts with
  | nil =>
      have none : variableNames (joinTexts []) = [] := by decide
      simp [none]
  | cons text rest ih =>
      cases rest with
      | nil => simp [joinTexts]
      | cons next more =>
          rw [joinTexts] at ih ⊢
          rw [String.intercalate_cons_of_ne_nil (List.cons_ne_nil _ _), mem_variableNames_join, ih]
          simp

/-! ## Words and signs -/

inductive Token where
  | word (letters : String)
  | sign (c : Char)
  | both
deriving DecidableEq

/-- The word that ends, if there is one; its letters are in reverse. -/
def endWord (current : List Char) : List Token :=
  if current = [] then [] else [.word (String.ofList current.reverse)]

/-- The tokens of a text with the word that is being read.  Blanks only keep others apart. -/
def scan : List Char → List Char → List Token
  | current, [] => endWord current
  | current, '&' :: '&' :: rest => endWord current ++ .both :: scan [] rest
  | current, c :: rest =>
    if isWordSign c then scan (c :: current) rest
    else if c = ' ' then endWord current ++ scan [] rest
    else endWord current ++ .sign c :: scan [] rest

def tokens (text : String) : List Token :=
  scan [] text.toList

theorem scan_cons {c : Char} {rest : List Char} (single : c = '&' → rest.head? ≠ some '&')
    (current : List Char) :
    scan current (c :: rest) =
      if isWordSign c then scan (c :: current) rest
      else if c = ' ' then endWord current ++ scan [] rest
      else endWord current ++ .sign c :: scan [] rest := by
  rw [scan]
  rintro more rfl rfl
  exact single rfl rfl

theorem scan_separator {c : Char} (apart : isWordSign c = false) (current rest : List Char) :
    scan current (c :: rest) = endWord current ++ scan [] (c :: rest) := by
  by_cases double : c = '&' ∧ rest.head? = some '&'
  · obtain ⟨rfl, next⟩ := double
    obtain ⟨more, rfl⟩ := List.head?_eq_some_iff.mp next
    rw [scan, scan]
    rfl
  · have single : c = '&' → rest.head? ≠ some '&' := not_and.mp double
    rw [scan_cons single, scan_cons single, apart, if_neg Bool.false_ne_true,
      if_neg Bool.false_ne_true]
    split <;> rfl

/-- A text is cut before a blank or a sign, but not within `&&`. -/
theorem scan_append {c : Char} (apart : isWordSign c = false) (back current front : List Char)
    (single : c = '&' → front.getLast? ≠ some '&') :
    scan current (front ++ c :: back) = scan current front ++ scan [] (c :: back) := by
  -- The front alone and the front before `c` are scanned by the same cases.
  have still {d : Char} {rest : List Char} (shape : ∀ more, d = '&' → rest = '&' :: more → False)
      (last : c = '&' → (d :: rest).getLast? ≠ some '&') : d = '&' →
        (rest ++ c :: back).head? ≠ some '&' := by
    rintro rfl there
    cases rest with
    | nil =>
        obtain rfl : c = '&' := Option.some.inj there
        exact last rfl rfl
    | cons next more =>
        obtain rfl : next = '&' := Option.some.inj there
        exact shape more rfl rfl
  have shorter {d : Char} {rest : List Char} (last : c = '&' → (d :: rest).getLast? ≠ some '&') :
      c = '&' → rest.getLast? ≠ some '&' := by
    intro sign there
    apply last sign
    rw [List.getLast?_cons, there]
    rfl
  fun_induction scan current front with
  | case1 current => exact scan_separator apart current back
  | case2 current rest ih =>
      simp only [List.cons_append, scan, ih (shorter (shorter single)), List.append_assoc]
  | case3 current d rest shape word ih =>
      rw [List.cons_append, scan_cons (still shape single), if_pos word, ih (shorter single)]
  | case4 current rest shape word ih =>
      rw [List.cons_append, scan_cons (still shape single), if_neg word, if_pos rfl,
        ih (shorter single), List.append_assoc]
  | case5 current d rest shape word blank ih =>
      rw [List.cons_append, scan_cons (still shape single), if_neg word, if_neg blank,
        ih (shorter single), List.append_assoc, List.cons_append]

theorem scan_append_blank (current front back : List Char) :
    scan current (front ++ ' ' :: back) = scan current front ++ scan [] back :=
  scan_append (by decide) back current front (fun sign => absurd sign (by decide))

theorem tokens_join (first second : String) :
    tokens (first ++ " && " ++ second) = tokens first ++ .both :: tokens second := by
  have letters : (first ++ " && " ++ second).toList =
      first.toList ++ ' ' :: ('&' :: '&' :: ([] ++ ' ' :: second.toList)) := by
    simp [String.toList_append]
  rw [tokens, letters, scan_append_blank, scan, scan_append_blank]
  rfl

/-! ## Parentheses -/

def depthAfter (depth : Nat) : Token → Nat
  | .sign '(' => depth + 1
  | .sign ')' => depth - 1
  | _ => depth

/-- Every parenthesis is closed, and none is closed that was not opened. -/
def balanced : Nat → List Token → Bool
  | depth, [] => depth == 0
  | depth, token :: rest =>
    (token ≠ .sign ')' || depth ≠ 0) && balanced (depthAfter depth token) rest

/-- What stands between separators outside of parentheses. -/
def pieces (separator : Token) : Nat → List Token → List (List Token)
  | _, [] => [[]]
  | depth, token :: rest =>
    if token = separator ∧ depth = 0 then [] :: pieces separator 0 rest
    else (pieces separator (depthAfter depth token) rest).modifyHead (token :: ·)

theorem exists_pieces (separator : Token) (depth : Nat) (tokens : List Token) :
    ∃ first rest, pieces separator depth tokens = first :: rest := by
  cases tokens with
  | nil => exact ⟨_, _, rfl⟩
  | cons token rest =>
      rw [pieces]
      split
      · exact ⟨_, _, rfl⟩
      · obtain ⟨first, more, shape⟩ := exists_pieces separator (depthAfter depth token) rest
        exact ⟨token :: first, more, by rw [shape]; rfl⟩

theorem depthAfter_add {depth : Nat} {token : Token}
    (opened : (token ≠ .sign ')' || depth ≠ 0) = true) (more : Nat) :
    depthAfter (depth + more) token = depthAfter depth token + more := by
  unfold depthAfter
  split
  · omega
  · have deep : depth ≠ 0 := by simpa using opened
    omega
  · rfl

/-- Balanced tokens leave the depth as it is, within any parentheses. -/
theorem balanced_append {depth : Nat} {front : List Token} (closed : balanced depth front = true)
    (more : Nat) (back : List Token) :
    balanced (depth + more) (front ++ back) = balanced more back := by
  induction front generalizing depth with
  | nil =>
      rw [balanced, beq_iff_eq] at closed
      rw [closed, List.nil_append, Nat.zero_add]
  | cons token rest ih =>
      rw [balanced, Bool.and_eq_true] at closed
      have still : (token ≠ .sign ')' || depth + more ≠ 0) = true := by
        have opened := closed.1
        simp only [Bool.or_eq_true, decide_eq_true_eq] at opened ⊢
        exact opened.imp_right (by omega)
      rw [List.cons_append, balanced, still, Bool.true_and, depthAfter_add closed.1, ih closed.2]

/-- After balanced tokens a separator stands outside of parentheses. -/
theorem pieces_append_separator {separator : Token}
    (flat : ∀ depth, depthAfter depth separator = depth) {depth : Nat} {front : List Token}
    (closed : balanced depth front = true) (back : List Token) :
    pieces separator depth (front ++ separator :: back) =
      pieces separator depth front ++ pieces separator 0 back := by
  induction front generalizing depth with
  | nil =>
      rw [balanced, beq_iff_eq] at closed
      simp [closed, pieces]
  | cons token rest ih =>
      rw [balanced, Bool.and_eq_true] at closed
      rw [List.cons_append, pieces, pieces]
      split
      · next here =>
          obtain ⟨rfl, rfl⟩ := here
          have later := closed.2
          rw [flat] at later
          rw [ih later, List.cons_append]
      · obtain ⟨first, more, shape⟩ := exists_pieces separator (depthAfter depth token) rest
        rw [ih closed.2, shape]
        rfl

/-! ## Terms -/

def readAll (read : List Token → Option Term) : List (List Token) → Option (List Term)
  | [] => some []
  | piece :: rest =>
    match read piece, readAll read rest with
    | some term, some terms => some (term :: terms)
    | _, _ => none

def readChain (separator : Token) (connective : Gate) (read : List Token → Option Term)
    (tokens : List Token) :
    Option Term :=
  (readAll read (pieces separator 0 tokens)).map (Term.joined connective)

/-- A term, or two that are to be equal. -/
def readEquation (read : List Token → Option Term) (tokens : List Token) : Option Term :=
  match readAll read (pieces (.sign '=') 0 tokens) with
  | some [term] => some term
  | some [left, right] => some (.neg (.gate .xor left right))
  | _ => none

/-- A constant, a name, or a formula in parentheses. -/
def readAtom (read : List Token → Option Term) : List Token → Option Term
  | [.word letters] =>
    if letters = "0" then some (.bit false)
    else if letters = "1" then some (.bit true)
    else if beginsName letters.toList then some (.var letters)
    else none
  | .sign '(' :: rest =>
    if rest.getLast? = some (.sign ')') ∧
      balanced 0 rest.dropLast = true then (read rest.dropLast).map .group
    else none
  | _ => none

def stroke : Token :=
  .sign (Char.ofNat 39)

/-- An atom with strokes after it, given in reverse. -/
def readNegated (read : List Token → Option Term) : List Token → Option Term
  | [] => none
  | token :: rest =>
    if token = stroke then (readNegated read rest).map .neg
    else readAtom read (token :: rest).reverse

def readSide (read : List Token → Option Term) : List Token → Option Term :=
  readChain (.sign '|') .or (readChain (.sign '+') .xor (readChain (.sign '&') .and
    fun piece => readNegated read piece.reverse))

def readClause (read : List Token → Option Term) : List Token → Option Term :=
  readEquation (readSide read)

/-- The depth bounds how deep parentheses are nested. -/
def readTokens : Nat → List Token → Option Term
  | 0, _ => none
  | depth + 1, tokens => readChain .both .both (readClause (readTokens depth)) tokens

def read (text : String) : Option Term :=
  if balanced 0 (tokens text) then readTokens (tokens text).length (tokens text) else none

example : read "x=a&b|c+(d && 1)' && y" = some (.gate .both
    (.neg (.gate .xor (.var "x") (.gate .or (.gate .and (.var "a") (.var "b"))
      (.gate .xor (.var "c") (.neg (.group (.gate .both (.var "d") (.bit true))))))))
    (.var "y")) :=
  rfl

/-! ## Nesting -/

/-- What is read one way is read the same in another. -/
def Extends (read more : List Token → Option Term) : Prop :=
  ∀ tokens term, read tokens = some term → more tokens = some term

section Extends
variable {read more : List Token → Option Term}

theorem Extends.readAll (wider : Extends read more) {parts : List (List Token)} {terms : List Term}
    (done : Formula.readAll read parts = some terms) : Formula.readAll more parts = some terms := by
  induction parts generalizing terms with
  | nil => exact done
  | cons piece rest ih =>
      rw [Formula.readAll] at done ⊢
      split at done
      · next term later here there => rw [wider _ _ here, ih there]; exact done
      · cases done

theorem Extends.readChain (wider : Extends read more) (separator : Token) (connective : Gate) :
    Extends (Formula.readChain separator connective read)
      (Formula.readChain separator connective more) := by
  intro tokens term done
  obtain ⟨terms, all, joined⟩ := Option.map_eq_some_iff.mp done
  rw [Formula.readChain, wider.readAll all, Option.map_some, joined]

theorem Extends.readEquation (wider : Extends read more) :
    Extends (Formula.readEquation read) (Formula.readEquation more) := by
  intro tokens term done
  rw [Formula.readEquation] at done ⊢
  cases all : Formula.readAll read (pieces (.sign '=') 0 tokens) with
  | none =>
      rw [all] at done
      cases done
  | some terms => rwa [wider.readAll all, ← all]

theorem Extends.readAtom (wider : Extends read more) :
    Extends (Formula.readAtom read) (Formula.readAtom more) := by
  intro tokens term done
  unfold Formula.readAtom at done ⊢
  split at done
  · exact done
  · next rest =>
      split at done
      · next closed =>
          obtain ⟨inner, here, grouped⟩ := Option.map_eq_some_iff.mp done
          rw [if_pos closed, wider _ _ here, Option.map_some, grouped]
      · cases done
  · cases done

theorem Extends.readNegated (wider : Extends read more) :
    Extends (Formula.readNegated read) (Formula.readNegated more) := by
  intro tokens
  induction tokens with
  | nil => exact fun _ done => done
  | cons token rest ih =>
      intro term done
      rw [Formula.readNegated] at done ⊢
      split at done
      · next last =>
          obtain ⟨inner, here, negated⟩ := Option.map_eq_some_iff.mp done
          rw [if_pos last, ih inner here, Option.map_some, negated]
      · next other =>
          rw [if_neg other]
          exact wider.readAtom _ _ done

theorem Extends.readClause (wider : Extends read more) :
    Extends (Formula.readClause read) (Formula.readClause more) := by
  have inner : Extends (fun piece => Formula.readNegated read piece.reverse)
      (fun piece => Formula.readNegated more piece.reverse) :=
    fun piece => wider.readNegated piece.reverse
  exact (((inner.readChain _ _).readChain _ _).readChain _ _).readEquation

end Extends

/-- A term that was read is read again with a greater depth. -/
theorem readTokens_extends {depth deeper : Nat} (deep : depth ≤ deeper) :
    Extends (readTokens depth) (readTokens deeper) := by
  induction depth generalizing deeper with
  | zero =>
      intro tokens term done
      cases done
  | succ depth ih =>
      obtain ⟨below, rfl⟩ : ∃ below, deeper = below + 1 := ⟨deeper - 1, by omega⟩
      exact (ih (by omega : depth ≤ below)).readClause.readChain _ _

/-! ## Joining -/

theorem readAll_append {read : List Token → Option Term} {first second : List (List Token)}
    {left right : List Term} (here : readAll read first = some left)
    (there : readAll read second = some right) :
    readAll read (first ++ second) = some (left ++ right) := by
  induction first generalizing left with
  | nil =>
      cases here
      exact there
  | cons piece rest ih =>
      rw [readAll] at here
      split at here
      · next term terms one more =>
          cases here
          rw [List.cons_append, readAll, one, ih more, List.cons_append]
      · cases here

theorem readTokens_of_read {text : String} {term : Term} (done : read text = some term)
    {depth : Nat} (deep : (tokens text).length ≤ depth) :
    balanced 0 (tokens text) = true ∧ readTokens depth (tokens text) = some term := by
  unfold read at done
  split at done
  · next closed => exact ⟨closed, readTokens_extends deep _ _ done⟩
  · cases done

/-- Two formulas that are joined are read as their conjunction. -/
theorem read_join {first second : String} {left right : Term} (here : read first = some left)
    (there : read second = some right) :
    ∃ term, read (first ++ " && " ++ second) = some term ∧
      ∀ value, term.eval value = (left.eval value && right.eval value) := by
  have length : (tokens (first ++ " && " ++ second)).length =
      (tokens first).length + (tokens second).length + 1 := by
    rw [tokens_join, List.length_append, List.length_cons]
    omega
  obtain ⟨closed, done⟩ :=
    readTokens_of_read here (by omega : _ ≤ (tokens first).length + (tokens second).length + 1)
  obtain ⟨closedToo, doneToo⟩ :=
    readTokens_of_read there (by omega : _ ≤ (tokens first).length + (tokens second).length + 1)
  obtain ⟨terms, all, rfl⟩ := Option.map_eq_some_iff.mp done
  obtain ⟨termsToo, allToo, rfl⟩ := Option.map_eq_some_iff.mp doneToo
  refine ⟨Term.joined .both (terms ++ termsToo), ?_, fun value => ?_⟩
  · have whole : balanced 0 (tokens first ++ .both :: tokens second) = true := by
      exact (balanced_append closed 0 _).trans closedToo
    rw [read, length, tokens_join, if_pos whole, readTokens, readChain,
      pieces_append_separator (fun _ => rfl) closed, readAll_append all allToo]
    rfl
  · rw [Term.eval_joined_both, Term.eval_joined_both, Term.eval_joined_both, List.all_append]

/-! ## Truth of texts -/

def Readable (text : String) : Prop :=
  ∃ term, read text = some term

instance (text : String) : Decidable (Readable text) :=
  decidable_of_iff ((read text).isSome = true) Option.isSome_iff_exists

/-- A text is true under an assignment; one that cannot be read is not. -/
def holdsText (value : Assignment) (text : String) : Bool :=
  match read text with
  | some term => term.eval value
  | none => false

def Mentions (text name : String) : Prop :=
  ∃ term, read text = some term ∧ name ∈ term.names

theorem holdsText_eq {text : String} {term : Term} (done : read text = some term)
    (value : Assignment) :
    holdsText value text = term.eval value := by
  rw [holdsText, done]

theorem holdsText_congr {first second : Assignment} {text : String}
    (same : ∀ name, Mentions text name → first name = second name) :
    holdsText first text = holdsText second text := by
  cases done : read text with
  | none => rw [holdsText, holdsText, done]
  | some term =>
      rw [holdsText_eq done, holdsText_eq done]
      exact Term.eval_congr fun name member => same name ⟨term, done, member⟩

theorem holdsText_joinTexts {texts : List String} (filled : texts ≠ [])
    (readable : ∀ text ∈ texts, Readable text) :
    Readable (joinTexts texts) ∧ ∀ value,
      holdsText value (joinTexts texts) = texts.all (holdsText value) := by
  induction texts with
  | nil => exact absurd rfl filled
  | cons text rest ih =>
      rw [List.forall_mem_cons] at readable
      cases rest with
      | nil => simpa [joinTexts] using readable.1
      | cons next more =>
          obtain ⟨⟨later, there⟩, all⟩ := ih (List.cons_ne_nil _ _) readable.2
          obtain ⟨first, here⟩ := readable.1
          obtain ⟨term, joined, eval⟩ := read_join here there
          have shape :
              joinTexts (text :: next :: more) = text ++ " && " ++ joinTexts (next :: more) :=
            String.intercalate_cons_of_ne_nil (List.cons_ne_nil _ _)
          rw [← shape] at joined
          refine ⟨⟨term, joined⟩, fun value => ?_⟩
          rw [holdsText_eq joined, eval, List.all_cons, holdsText_eq here, ← all,
            holdsText_eq there]

end Formula

end Zkvm
