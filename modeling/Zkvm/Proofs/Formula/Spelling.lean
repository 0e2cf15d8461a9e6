import Zkvm.Proofs.Formula.Reading

/-!
# Reading what is written

A term whose operands are names, constants or terms in parentheses, with one connective between
them, is read from its text as itself.  So the text of a clause that defines a name by such a term
is true under an assignment exactly if the clause is.
-/
set_option autoImplicit false

namespace Zkvm

namespace Formula

/-- A word that is read as a variable. -/
structure IsName (name : String) : Prop where
  begins : beginsName name.toList = true
  word : ∀ c ∈ name.toList, isWordSign c = true

theorem isName_iff {name : String} :
    IsName name ↔ (beginsName name.toList && name.toList.all isWordSign) = true := by
  rw [Bool.and_eq_true, List.all_eq_true]
  exact ⟨fun named => ⟨named.begins, named.word⟩, fun ⟨begins, word⟩ => ⟨begins, word⟩⟩

instance (name : String) : Decidable (IsName name) :=
  decidable_of_iff _ isName_iff.symm

end Formula

def Gate.sign? : Gate → Option Char
  | .xor => some '+'
  | .and => some '&'
  | .or => some '|'
  | _ => none

/-- Names, constants, and terms in parentheses that join such terms by one connective. -/
inductive Term.Bracketed : Term → Prop where
  | var {name : String} (named : Formula.IsName name) : Bracketed (.var name)
  | bit (value : Bool) : Bracketed (.bit value)
  | group {connective : Gate} {first : Term} {rest : List Term}
    (signed : connective.sign?.isSome = true)
      (firstBracketed : Bracketed first) (restBracketed : ∀ term ∈ rest, Bracketed term) :
      Bracketed (.group (joined connective (first :: rest)))

namespace Formula

/-! ## Tokens of texts -/

theorem scan_word {letters : List Char} (word : ∀ c ∈ letters, isWordSign c = true)
    (current : List Char) :
    scan current letters = endWord (letters.reverse ++ current) := by
  induction letters generalizing current with
  | nil => rfl
  | cons c rest ih =>
      rw [List.forall_mem_cons] at word
      have single : c = '&' → rest.head? ≠ some '&' := by
        rintro rfl
        cases word.1
      rw [scan_cons single, if_pos word.1, ih word.2, List.reverse_cons, List.append_assoc,
        List.singleton_append]

theorem tokens_word {text : String} (filled : text.toList ≠ [])
    (word : ∀ c ∈ text.toList, isWordSign c = true) :
    tokens text = [.word text] := by
  rw [tokens, scan_word word, List.append_nil, endWord, if_neg (by simpa using filled),
    List.reverse_reverse, String.ofList_toList]

/-- A sign between two texts that does not become `&&` with one of them. -/
theorem scan_append_sign {c : Char} (apart : isWordSign c = false) (visible : c ≠ ' ')
    {front back : List Char} (before : front.getLast? ≠ some '&') (after : back.head? ≠ some '&') :
    scan [] (front ++ c :: back) = scan [] front ++ .sign c :: scan [] back := by
  rw [scan_append apart back [] front fun _ => before, scan_cons fun _ => after, apart,
    if_neg Bool.false_ne_true, if_neg visible]
  rfl

theorem tokens_parentheses (text : String) :
    tokens ("(" ++ text ++ ")") = .sign '(' :: (tokens text ++ [.sign ')']) := by
  have letters : ("(" ++ text ++ ")").toList = '(' :: text.toList ++ [')'] := by
    simp [String.toList_append]
  rw [tokens, letters, scan_append (by decide) [] [] _ (fun sign => absurd sign (by decide)),
    scan_cons (fun sign => absurd sign (by decide))]
  rfl

/-! ## Terms among signs -/

/-- The signs at which a text is cut into terms. -/
def separators : List Token :=
  [.both, .sign '=', .sign '|', .sign '+', .sign '&']

/-- Tokens that are balanced and not cut at any sign. -/
structure Uncut (tokens : List Token) : Prop where
  closed : balanced 0 tokens = true
  whole : ∀ separator ∈ separators, pieces separator 0 tokens = [tokens]

theorem uncut_word (letters : String) : Uncut [.word letters] where
  closed := rfl
  whole separator member := by
    simp only [separators, List.mem_cons, List.not_mem_nil, or_false] at member
    rcases member with rfl | rfl | rfl | rfl | rfl <;> simp [pieces]

theorem pieces_inside (separator : Token) {depth : Nat} {front : List Token}
    (closed : balanced depth front = true) (more : Nat) (back : List Token) :
    pieces separator (depth + (more + 1)) (front ++ back) =
      (pieces separator (more + 1) back).modifyHead (front ++ ·) := by
  induction front generalizing depth with
  | nil =>
      rw [balanced, beq_iff_eq] at closed
      obtain ⟨first, rest, shape⟩ := exists_pieces separator (more + 1) back
      rw [closed, List.nil_append, Nat.zero_add, shape]
      rfl
  | cons token rest ih =>
      rw [balanced, Bool.and_eq_true] at closed
      obtain ⟨first, later, shape⟩ := exists_pieces separator (more + 1) back
      rw [List.cons_append, pieces, if_neg (by omega), depthAfter_add closed.1, ih closed.2, shape]
      rfl

theorem uncut_group {inner : List Token} (closed : balanced 0 inner = true) :
    Uncut (.sign '(' :: (inner ++ [.sign ')'])) where
  closed := by
    rw [balanced, Bool.and_eq_true]
    exact ⟨rfl, balanced_append closed 1 [.sign ')']⟩
  whole separator member := by
    have inside := pieces_inside separator closed 0 [.sign ')']
    simp only [separators, List.mem_cons, List.not_mem_nil, or_false] at member
    rw [pieces, if_neg]
    · rw [depthAfter, inside]
      simp [pieces]
    · rintro ⟨same, _⟩
      rw [← same] at member
      revert member
      decide

/-- Terms that are not cut stay together if they are joined by another sign. -/
theorem pieces_append {separator : Token} {depth : Nat} {front : List Token}
    (closed : balanced depth front = true) (whole : pieces separator depth front = [front])
    (back : List Token) :
    pieces separator depth (front ++ back) = (pieces separator 0 back).modifyHead (front ++ ·) := by
  induction front generalizing depth with
  | nil =>
      rw [balanced, beq_iff_eq] at closed
      obtain ⟨first, rest, shape⟩ := exists_pieces separator 0 back
      rw [closed, List.nil_append, shape]
      rfl
  | cons token rest ih =>
      rw [balanced, Bool.and_eq_true] at closed
      rw [pieces] at whole
      split at whole
      · cases whole
      · next other =>
          obtain ⟨first, later, shape⟩ := exists_pieces separator (depthAfter depth token) rest
          rw [shape, List.modifyHead_cons, List.cons.injEq, List.cons.injEq] at whole
          obtain ⟨⟨_, rfl⟩, rfl⟩ := whole
          obtain ⟨next, more, last⟩ := exists_pieces separator 0 back
          rw [List.cons_append, pieces, if_neg other, ih closed.2 shape, last]
          rfl

def spaced (c : Char) (first : List Token) (rest : List (List Token)) : List Token :=
  first ++ rest.flatMap (.sign c :: ·)

section Spaced
variable {c : Char} {first : List Token} {rest : List (List Token)}

theorem spaced_cons (c : Char) (first next : List Token) (more : List (List Token)) :
    spaced c first (next :: more) = first ++ .sign c :: spaced c next more := by
  simp [spaced]

theorem depthAfter_sign {c : Char} (flat : c ≠ '(' ∧ c ≠ ')') (depth : Nat) :
    depthAfter depth (.sign c) = depth := by
  unfold depthAfter
  split
  · next same => exact absurd (Token.sign.inj same) flat.1
  · next same => exact absurd (Token.sign.inj same) flat.2
  · rfl

theorem balanced_spaced (flat : c ≠ '(' ∧ c ≠ ')') (firstUncut : Uncut first)
    (restUncut : ∀ part ∈ rest, Uncut part) :
    balanced 0 (spaced c first rest) = true := by
  induction rest generalizing first with
  | nil => simpa [spaced] using firstUncut.closed
  | cons next more ih =>
      rw [List.forall_mem_cons] at restUncut
      rw [spaced_cons]
      refine (balanced_append firstUncut.closed 0 _).trans ?_
      rw [balanced, depthAfter_sign flat, ih restUncut.1 restUncut.2]
      simp [flat.2]

theorem pieces_spaced (flat : c ≠ '(' ∧ c ≠ ')') (cut : .sign c ∈ separators)
    (firstUncut : Uncut first) (restUncut : ∀ part ∈ rest, Uncut part) :
    pieces (.sign c) 0 (spaced c first rest) = first :: rest := by
  induction rest generalizing first with
  | nil => simpa [spaced] using firstUncut.whole _ cut
  | cons next more ih =>
      rw [List.forall_mem_cons] at restUncut
      rw [spaced_cons, pieces_append_separator (depthAfter_sign flat) firstUncut.closed,
        firstUncut.whole _ cut, ih restUncut.1 restUncut.2]
      rfl

theorem pieces_spaced_of_ne (flat : c ≠ '(' ∧ c ≠ ')') {separator : Token}
    (cut : separator ∈ separators) (other : .sign c ≠ separator) (firstUncut : Uncut first)
    (restUncut : ∀ part ∈ rest, Uncut part) :
    pieces separator 0 (spaced c first rest) = [spaced c first rest] := by
  induction rest generalizing first with
  | nil => simpa [spaced] using firstUncut.whole _ cut
  | cons next more ih =>
      rw [List.forall_mem_cons] at restUncut
      rw [spaced_cons, pieces_append firstUncut.closed (firstUncut.whole _ cut), pieces,
        if_neg fun same => other same.1, depthAfter_sign flat, ih restUncut.1 restUncut.2]
      rfl

theorem length_le_spaced {part : List Token} (member : part ∈ first :: rest) :
    part.length ≤ (spaced c first rest).length := by
  rw [spaced, List.length_append]
  rcases List.mem_cons.mp member with rfl | later
  · omega
  · have sub : (.sign c :: part).Sublist (rest.flatMap (.sign c :: ·)) := by
      rw [List.flatMap_def]
      exact List.sublist_flatten_of_mem (List.mem_map_of_mem later)
    have shorter := sub.length_le
    rw [List.length_cons] at shorter
    omega

end Spaced

/-! ## Reading terms -/

section Chains
variable {separator : Token} {connective : Gate} {read : List Token → Option Term}
  {part : List Token}

theorem readChain_whole (whole : pieces separator 0 part = [part]) :
    readChain separator connective read part = read part := by
  rw [readChain, whole, readAll, readAll]
  cases read part <;> rfl

theorem readEquation_whole (whole : pieces (.sign '=') 0 part = [part]) :
    readEquation read part = read part := by
  rw [readEquation, whole, readAll, readAll]
  cases read part <;> rfl

theorem readAll_texts {terms : List Term}
    (reads : ∀ term ∈ terms, read (tokens term.text) = some term) :
    readAll read (terms.map fun term => tokens term.text) = some terms := by
  induction terms with
  | nil => rfl
  | cons term rest ih =>
      rw [List.forall_mem_cons] at reads
      rw [List.map_cons, readAll, reads.1, ih reads.2]

theorem readChain_cut {terms : List Term}
    (cut : pieces separator 0 part = terms.map fun term => tokens term.text)
    (reads : ∀ term ∈ terms, read (tokens term.text) = some term) :
    readChain separator connective read part = some (Term.joined connective terms) := by
  rw [readChain, cut, readAll_texts reads, Option.map_some]

end Chains

theorem readNegated_parentheses {read : List Token → Option Term} {inner : List Token}
    (closed : balanced 0 inner = true) :
    readNegated read (.sign '(' :: (inner ++ [.sign ')'])).reverse = (read inner).map .group := by
  have turned : (Token.sign '(' :: (inner ++ [.sign ')'])).reverse =
      .sign ')' :: (.sign '(' :: inner).reverse := by
    simp
  have back : (Token.sign ')' :: (.sign '(' :: inner).reverse).reverse =
      .sign '(' :: (inner ++ [.sign ')']) := by
    simp
  rw [turned, readNegated, if_neg (by decide), back, readAtom, List.getLast?_concat,
    List.dropLast_concat, if_pos ⟨rfl, closed⟩]

/-- A term that is read from its text as itself, and that stays one operand among signs. -/
structure Spelled (term : Term) : Prop where
  head : ∃ c rest, term.text.toList = c :: rest ∧ c ≠ '&'
  last : term.text.toList.getLast? ≠ some '&'
  uncut : Uncut (tokens term.text)
  reads : ∀ depth, (tokens term.text).length ≤ depth + 1 →
    readNegated (readTokens depth) (tokens term.text).reverse = some term

theorem Spelled.readSide {term : Term} (spelled : Spelled term) {depth : Nat}
    (deep : (tokens term.text).length ≤ depth + 1) :
    readSide (readTokens depth) (tokens term.text) = some term := by
  have whole := spelled.uncut.whole
  rw [Formula.readSide, readChain_whole (whole _ (by decide)),
    readChain_whole (whole _ (by decide)), readChain_whole (whole _ (by decide))]
  exact spelled.reads depth deep

section Joined
variable {connective : Gate} {c : Char} {first : Term} {rest : List Term}

theorem text_joined (sign : connective.sign? = some c) (first : Term) (rest : List Term) :
    (Term.joined connective (first :: rest)).text.toList =
      first.text.toList ++ rest.flatMap fun term => c :: term.text.toList := by
  have symbol : connective.symbol.toList = [c] := by
    cases connective <;> cases sign <;> rfl
  change (rest.foldl (.gate connective) first).text.toList = _
  induction rest generalizing first with
  | nil => simp
  | cons next more ih =>
      rw [List.foldl_cons, ih, Term.text, String.toList_append, String.toList_append, symbol,
        List.flatMap_cons, List.append_assoc, List.append_assoc, List.singleton_append,
        List.cons_append]

theorem scan_spaced (apart : isWordSign c = false) (visible : c ≠ ' ') {front : List Char}
    (before : front.getLast? ≠ some '&') (restSpelled : ∀ term ∈ rest, Spelled term) :
    scan [] (front ++ rest.flatMap fun term => c :: term.text.toList) =
      spaced c (scan [] front) (rest.map fun term => tokens term.text) := by
  induction rest generalizing front with
  | nil => simp [spaced]
  | cons next more ih =>
      rw [List.forall_mem_cons] at restSpelled
      have after : (next.text.toList ++ more.flatMap fun term => c :: term.text.toList).head? ≠
          some '&' := by
        obtain ⟨d, letters, begins, other⟩ := restSpelled.1.head
        rw [begins]
        exact fun same => other (Option.some.inj same)
      rw [List.flatMap_cons, List.cons_append, scan_append_sign apart visible before after,
        ih restSpelled.1.last restSpelled.2, List.map_cons, spaced_cons, tokens]

/-- Operands that are spelled, with a sign between them. -/
theorem tokens_joined (sign : connective.sign? = some c) (firstSpelled : Spelled first)
    (restSpelled : ∀ term ∈ rest, Spelled term) :
    tokens (Term.joined connective (first :: rest)).text =
      spaced c (tokens first.text) (rest.map fun term => tokens term.text) := by
  have apart : isWordSign c = false ∧ c ≠ ' ' := by
    cases connective <;> cases sign <;> decide
  rw [tokens, text_joined sign, scan_spaced apart.1 apart.2 firstSpelled.last restSpelled, tokens]

theorem readTokens_joined (sign : connective.sign? = some c) (firstSpelled : Spelled first)
    (restSpelled : ∀ term ∈ rest, Spelled term) {depth : Nat}
    (deep : (tokens (Term.joined connective (first :: rest)).text).length ≤ depth) :
    readTokens (depth + 1) (tokens (Term.joined connective (first :: rest)).text) =
      some (Term.joined connective (first :: rest)) := by
  have all : ∀ term ∈ first :: rest, Spelled term :=
    List.forall_mem_cons.mpr ⟨firstSpelled, restSpelled⟩
  have parts : ∀ part ∈ rest.map fun term => tokens term.text, Uncut part :=
    List.forall_mem_map.mpr fun term member => (restSpelled term member).uncut
  rw [tokens_joined sign firstSpelled restSpelled] at deep ⊢
  have reads : ∀ term ∈ first :: rest,
      readNegated (readTokens depth) (tokens term.text).reverse = some term := by
    intro term member
    refine (all term member).reads depth
      (Nat.le_succ_of_le (Nat.le_trans (length_le_spaced ?_) deep))
    exact List.mem_map_of_mem (f := fun term => tokens term.text) member
  have flat : c ≠ '(' ∧ c ≠ ')' := by
    cases connective <;> cases sign <;> decide
  have cut :
      pieces (.sign c) 0 (spaced c (tokens first.text) (rest.map fun term => tokens term.text)) =
        (first :: rest).map fun term => tokens term.text := by
    refine pieces_spaced flat ?_ firstSpelled.uncut parts
    cases connective <;> cases sign <;> decide
  have whole {separator : Token} (member : separator ∈ separators) (other : .sign c ≠ separator) :=
    pieces_spaced_of_ne flat member other firstSpelled.uncut parts
  have alone {separator : Token} {gate : Gate} {read : List Token → Option Term}
      (member : separator ∈ separators)
      (reads : ∀ term ∈ first :: rest, read (tokens term.text) = some term) :
      ∀ term ∈ first :: rest, readChain separator gate read (tokens term.text) = some term :=
    fun term there => (readChain_whole ((all term there).uncut.whole _ member)).trans
      (reads term there)
  -- Signs that bind looser than the one between the operands leave all together, those that bind
  -- closer leave each.
  rw [readTokens, readChain_whole (whole (by decide) (by simp)), readClause]
  cases connective with
  | and =>
      cases sign
      rw [readEquation_whole (whole (by decide) (by decide)), readSide,
        readChain_whole (whole (by decide) (by decide)),
        readChain_whole (whole (by decide) (by decide))]
      exact readChain_cut cut reads
  | xor =>
      cases sign
      rw [readEquation_whole (whole (by decide) (by decide)), readSide,
        readChain_whole (whole (by decide) (by decide))]
      exact readChain_cut cut (alone (by decide) reads)
  | or =>
      cases sign
      rw [readEquation_whole (whole (by decide) (by decide))]
      exact readChain_cut cut (alone (by decide) (alone (by decide) reads))
  | wideXor | wideAnd | wideOr | both => cases sign

theorem Spelled.group (sign : connective.sign? = some c) (firstSpelled : Spelled first)
    (restSpelled : ∀ term ∈ rest, Spelled term) :
    Spelled (.group (Term.joined connective (first :: rest))) := by
  have closed : balanced 0 (tokens (Term.joined connective (first :: rest)).text) = true := by
    rw [tokens_joined sign firstSpelled restSpelled]
    refine balanced_spaced ?_ firstSpelled.uncut (List.forall_mem_map.mpr fun term member => ?_)
    · cases connective <;> cases sign <;> decide
    · exact (restSpelled term member).uncut
  have shape := tokens_parentheses (Term.joined connective (first :: rest)).text
  constructor
  · exact ⟨'(', _, by rw [Term.text, String.toList_append, String.toList_append]; rfl, by decide⟩
  · rw [Term.text, String.toList_append, List.getLast?_append_of_ne_nil _ (by decide)]
    decide
  · rw [Term.text, shape]
    exact uncut_group closed
  · intro depth deep
    rw [Term.text, shape] at deep ⊢
    rw [List.length_cons, List.length_append, List.length_singleton] at deep
    obtain ⟨below, rfl⟩ : ∃ below, depth = below + 1 := ⟨depth - 1, by omega⟩
    rw [readNegated_parentheses closed, readTokens_joined sign firstSpelled restSpelled (by omega),
      Option.map_some]

end Joined

/-- A word that is read as an atom. -/
theorem Spelled.word {term : Term} (filled : term.text.toList ≠ [])
    (word : ∀ c ∈ term.text.toList, isWordSign c = true)
    (reads : ∀ read, readAtom read [.word term.text] = some term) : Spelled term := by
  have other {c : Char} (member : c ∈ term.text.toList) : c ≠ '&' := by
    rintro rfl
    cases word _ member
  constructor
  · obtain ⟨c, rest, shape⟩ := List.exists_cons_of_ne_nil filled
    exact ⟨c, rest, shape, other (by rw [shape]; exact List.mem_cons_self ..)⟩
  · exact fun same => other (List.mem_of_getLast? same) rfl
  · rw [tokens_word filled word]
    exact uncut_word term.text
  · intro depth _
    rw [tokens_word filled word, List.reverse_singleton, readNegated, if_neg (by simp [stroke])]
    exact reads _

theorem Spelled.var {name : String} (named : IsName name) : Spelled (.var name) := by
  have filled : name.toList ≠ [] := by
    intro empty
    have begins := named.begins
    rw [empty] at begins
    cases begins
  have notDigit {digit : String} (first : beginsName digit.toList = false) : name ≠ digit := by
    rintro rfl
    rw [named.begins] at first
    cases first
  refine .word filled named.word fun read => ?_
  rw [Term.text, readAtom, if_neg (notDigit (by decide)), if_neg (notDigit (by decide)),
    if_pos named.begins]

theorem Spelled.bit (value : Bool) : Spelled (.bit value) := by
  cases value with
  | false => exact .word (by decide) (List.all_eq_true.mp (by decide)) fun _ => rfl
  | true => exact .word (by decide) (List.all_eq_true.mp (by decide)) fun _ => rfl

end Formula

theorem Term.Bracketed.spelled {term : Term} (bracketed : term.Bracketed) :
    Formula.Spelled term := by
  induction bracketed with
  | var named => exact .var named
  | bit value => exact .bit value
  | group signed _ _ firstSpelled restSpelled =>
      obtain ⟨c, sign⟩ := Option.isSome_iff_exists.mp signed
      exact .group sign firstSpelled restSpelled

def Clause.Bracketed : Clause → Prop
  | .define name value => Formula.IsName name ∧ value.Bracketed
  | .demand term => term.Bracketed

namespace Formula

theorem read_text {term : Term} (bracketed : term.Bracketed) : read term.text = some term := by
  have spelled := bracketed.spelled
  have whole := spelled.uncut.whole
  rw [read, if_pos spelled.uncut.closed]
  cases length : (tokens term.text).length with
  | zero =>
      have reads := spelled.reads 0 (by omega)
      rw [List.length_eq_zero_iff.mp length] at reads
      cases reads
  | succ depth =>
      rw [readTokens, readChain_whole (whole _ (by decide)), readClause,
        readEquation_whole (whole _ (by decide))]
      exact spelled.readSide (Nat.le_of_eq length)

theorem toList_define (name : String) (term : Term) :
    (Clause.define name term).text.toList = name.toList ++ '=' :: term.text.toList := by
  simp [Clause.text, String.toList_append]

theorem read_define {name : String} {term : Term} (named : IsName name)
    (bracketed : term.Bracketed) :
    read (Clause.define name term).text = some (.neg (.gate .xor (.var name) term)) := by
  have left : Spelled (.var name) := .var named
  have right := bracketed.spelled
  have parts : ∀ part ∈ [tokens term.text], Uncut part := List.forall_mem_singleton.mpr right.uncut
  have shape : tokens (Clause.define name term).text =
      spaced '=' (tokens (Term.var name).text) [tokens term.text] := by
    have letters : (Clause.define name term).text.toList =
        (Term.var name).text.toList ++ [term].flatMap fun term => '=' :: term.text.toList := by
      rw [toList_define, List.flatMap_singleton, Term.text]
    rw [tokens, letters]
    exact scan_spaced (by decide) (by decide) left.last (List.forall_mem_singleton.mpr right)
  have length : (spaced '=' (tokens (Term.var name).text) [tokens term.text]).length =
      (tokens (Term.var name).text).length + (tokens term.text).length + 1 := by
    simp [spaced, Nat.add_assoc]
  have flat : '=' ≠ '(' ∧ '=' ≠ ')' := by decide
  have closed := balanced_spaced flat left.uncut parts
  have whole :=
    pieces_spaced_of_ne flat (by decide : Token.both ∈ separators) (by simp) left.uncut parts
  have cut := pieces_spaced flat (by decide) left.uncut parts
  have sides :
      readAll
        (readSide (readTokens ((tokens (Term.var name).text).length + (tokens term.text).length)))
        [tokens (Term.var name).text, tokens term.text] = some [.var name, term] := by
    change readAll _ ([.var name, term].map fun term => tokens term.text) = _
    refine readAll_texts
      (List.forall_mem_cons.mpr ⟨left.readSide ?_, List.forall_mem_singleton.mpr ?_⟩)
    · omega
    · exact right.readSide (by omega)
  rw [read, shape, if_pos closed, length, readTokens, readChain_whole whole, readClause,
    readEquation, cut, sides]

/-- The text of a clause means what the clause means. -/
theorem read_clause {clause : Clause} (bracketed : clause.Bracketed) :
    ∃ term, read clause.text = some term ∧ ∀ value, term.eval value = clause.holds value := by
  cases clause with
  | define name term =>
      refine ⟨_, read_define bracketed.1 bracketed.2, fun value => ?_⟩
      rw [Term.eval, Term.eval, Gate.apply, Clause.holds, Term.eval]
      cases value name <;> cases term.eval value <;> rfl
  | demand term => exact ⟨term, read_text bracketed, fun value => rfl⟩

end Formula

end Zkvm
