import Zkvm.Proofs.Formula.Opening

/-!
# Blanks around signs

A connective may be written with blanks around its sign.  Blanks only keep other signs apart, so a
term has the same tokens as its narrow form, where every connective is written without them, and is
read as that form.
-/
set_option autoImplicit false

namespace Zkvm

/-! ## Narrow forms -/

def Gate.narrow : Gate → Gate
  | .wideXor => .xor
  | .wideAnd => .and
  | .wideOr => .or
  | other => other

theorem Gate.apply_narrow (connective : Gate) (x y : Bool) :
    connective.narrow.apply x y = connective.apply x y := by
  cases connective <;> rfl

namespace Term

def narrow : Term → Term
  | .gate connective left right => .gate connective.narrow left.narrow right.narrow
  | .neg inner => .neg inner.narrow
  | .group inner => .group inner.narrow
  | .var name => .var name
  | .bit value => .bit value
  | .nothing => .nothing

theorem eval_narrow (value : Assignment) (term : Term) :
    term.narrow.eval value = term.eval value := by
  induction term with
  | var | bit | nothing => rfl
  | neg inner ih => rw [narrow, eval, ih, eval]
  | group inner ih => rw [narrow, eval, ih, eval]
  | gate connective left right leftIh rightIh =>
    rw [narrow, eval, leftIh, rightIh, Gate.apply_narrow, eval]

theorem narrow_joined (connective : Gate) (terms : List Term) :
    (joined connective terms).narrow = joined connective.narrow (terms.map narrow) := by
  have fold (first : Term) (rest : List Term) : (rest.foldl (.gate connective) first).narrow =
      (rest.map narrow).foldl (.gate connective.narrow) first.narrow := by
    induction rest generalizing first with
    | nil => rfl
    | cons next more ih => rw [List.foldl_cons, ih, List.map_cons, List.foldl_cons, narrow]
  cases terms with
  | nil => rfl
  | cons first rest => exact fold first rest

/-- All names are names, and no operand is missing. -/
inductive Filled : Term → Prop where
  | var {name : String} (named : Formula.IsName name) : Filled (.var name)
  | bit (value : Bool) : Filled (.bit value)
  | neg {inner : Term} (filled : Filled inner) : Filled (.neg inner)
  | gate {connective : Gate} {left right : Term} (leftFilled : Filled left)
    (rightFilled : Filled right) :
      Filled (.gate connective left right)
  | group {inner : Term} (filled : Filled inner) : Filled (.group inner)

theorem Filled.narrow {term : Term} (filled : term.Filled) : term.narrow.Filled := by
  induction filled with
  | var named => exact .var named
  | bit value => exact .bit value
  | neg _ ih => exact .neg ih
  | gate _ _ leftIh rightIh => exact .gate leftIh rightIh
  | group _ ih => exact .group ih

theorem filled_joined (connective : Gate) {first : Term} {rest : List Term}
    (firstFilled : first.Filled) (restFilled : ∀ term ∈ rest, term.Filled) :
    (joined connective (first :: rest)).Filled := by
  change (rest.foldl (.gate connective) first).Filled
  induction rest generalizing first with
  | nil => exact firstFilled
  | cons next more ih =>
      obtain ⟨nextFilled, moreFilled⟩ := List.forall_mem_cons.mp restFilled
      exact ih (.gate firstFilled nextFilled) moreFilled

end Term

namespace Formula

/-! ## Tokens -/

def gateToken : Gate → Token
  | .xor | .wideXor => .sign '+'
  | .and | .wideAnd => .sign '&'
  | .or | .wideOr => .sign '|'
  | .both => .both

theorem gateToken_narrow (connective : Gate) :
    gateToken connective.narrow = gateToken connective := by
  cases connective <;> rfl

/-- The text neither begins nor ends with the sign that could become `&&` with another one. -/
structure Apart (letters : List Char) : Prop where
  head : ∃ c rest, letters = c :: rest ∧ c ≠ '&'
  last : letters.getLast? ≠ some '&'

theorem Apart.head? {letters : List Char} (apart : Apart letters) : letters.head? ≠ some '&' := by
  obtain ⟨c, rest, rfl, other⟩ := apart.head
  exact fun same => other (Option.some.inj same)

theorem Apart.append {front back : List Char} (before : Apart front) (after : Apart back)
    (middle : List Char) :
    Apart (front ++ (middle ++ back)) := by
  obtain ⟨c, rest, rfl, other⟩ := before.head
  obtain ⟨d, more, rfl, _⟩ := after.head
  refine ⟨⟨c, _, rfl, other⟩, ?_⟩
  rw [List.getLast?_append_of_ne_nil _ (by simp), List.getLast?_append_of_ne_nil _ (by simp)]
  exact after.last

theorem Spelled.apart {term : Term} (spelled : Spelled term) : Apart term.text.toList where
  head := spelled.head
  last := spelled.last

theorem text_gate (connective : Gate) (left right : Term) :
    (Term.gate connective left right).text.toList =
      left.text.toList ++ (connective.symbol.toList ++ right.text.toList) := by
  rw [Term.text, String.toList_append, String.toList_append, List.append_assoc]

theorem apart_of_filled {term : Term} (filled : term.Filled) : Apart term.text.toList := by
  induction filled with
  | var named => exact (Spelled.var named).apart
  | bit value => exact (Spelled.bit value).apart
  | @neg inner _ ih =>
      obtain ⟨c, rest, letters, other⟩ := ih.head
      rw [Term.text, String.toList_append, letters]
      refine ⟨⟨c, _, rfl, other⟩, ?_⟩
      rw [List.getLast?_append_of_ne_nil _ (by decide)]
      decide
  | @gate connective left right _ _ leftIh rightIh =>
      rw [text_gate]
      exact leftIh.append rightIh _
  | @group inner _ ih =>
      rw [Term.text, String.toList_append, String.toList_append]
      refine ⟨⟨'(', _, rfl, by decide⟩, ?_⟩
      rw [List.getLast?_append_of_ne_nil _ (by decide)]
      decide

theorem scan_wide {c : Char} (apart : isWordSign c = false) (visible : c ≠ ' ')
    (front back : List Char) :
    scan [] (front ++ ' ' :: c :: ' ' :: back) = scan [] front ++ .sign c :: scan [] back := by
  have blank : scan [] (c :: ' ' :: back) = .sign c :: scan [] (' ' :: back) := by
    rw [scan_cons (by simp), apart, if_neg Bool.false_ne_true, if_neg visible]
    rfl
  rw [scan_append_blank, blank]
  exact congrArg (fun later => scan [] front ++ .sign c :: later) (scan_append_blank [] [] back)

/-- A connective has its token between those of its operands, however it is written. -/
theorem tokens_gate {connective : Gate} {left right : Term} (leftFilled : left.Filled)
    (rightFilled : right.Filled) :
    tokens (Term.gate connective left right).text =
      tokens left.text ++ gateToken connective :: tokens right.text := by
  have before := (apart_of_filled leftFilled).last
  have after := (apart_of_filled rightFilled).head?
  cases connective with
  | xor | and | or =>
      rw [tokens, text_gate]
      exact scan_append_sign (by decide) (by decide) before after
  | wideXor | wideAnd | wideOr =>
      rw [tokens, text_gate]
      exact scan_wide (by decide) (by decide) _ _
  | both => exact tokens_join left.text right.text

theorem tokens_neg (inner : Term) :
    tokens (Term.neg inner).text = tokens inner.text ++ [.sign '\''] := by
  rw [tokens, Term.text, String.toList_append]
  exact scan_append (by decide) [] [] _ (fun sign => absurd sign (by decide))

theorem tokens_narrow {term : Term} (filled : term.Filled) :
    tokens term.narrow.text = tokens term.text := by
  induction filled with
  | var | bit => rfl
  | neg _ ih => rw [Term.narrow, tokens_neg, ih, tokens_neg]
  | gate leftFilled rightFilled leftIh rightIh =>
      rw [Term.narrow, tokens_gate leftFilled.narrow rightFilled.narrow,
        tokens_gate leftFilled rightFilled, leftIh, rightIh, gateToken_narrow]
  | group _ ih => rw [Term.narrow, Term.text, tokens_parentheses, ih, Term.text, tokens_parentheses]

/-! ## Definitions -/

section Definitions
variable {name : String} {term : Term} (named : IsName name)
include named

theorem tokens_define (filled : term.Filled) :
    tokens (Clause.define name term).text = tokens name ++ .sign '=' :: tokens term.text := by
  rw [tokens, toList_define]
  exact scan_append_sign (by decide) (by decide) (Spelled.var named).last
    (apart_of_filled filled).head?

theorem holdsText_define (filled : term.Filled) (bracketed : term.narrow.Bracketed)
    (value : Assignment) :
    holdsText value (Clause.define name term).text = true ↔ value name = term.eval value := by
  have same : holdsText value (Clause.define name term).text =
      holdsText value (Clause.define name term.narrow).text := by
    rw [holdsText, holdsText, read, read, tokens_define named filled.narrow, tokens_narrow filled,
      tokens_define named filled]
  have whole : (Clause.define name term.narrow).Bracketed := ⟨named, bracketed⟩
  rw [same, holdsText_text whole, holds_define, Term.eval_narrow]

/-- The name that a definition defines stands before the first sign of its text. -/
theorem takeWhile_define :
    (Clause.define name term).text.toList.takeWhile isWordSign = name.toList := by
  rw [toList_define, List.takeWhile_append_of_pos named.word]
  simp [isWordSign, Circuit.isLetter, Circuit.isDigit]

/-- A definition of a name that is not opened is kept. -/
theorem opened_define {names : List String} (namedAll : ∀ other ∈ names, IsName other)
    (apart : name ∉ names) :
    opened names [(Clause.define name term).text] = [(Clause.define name term).text] := by
  have kept : assigns names (Clause.define name term).text = false := by
    rw [Bool.eq_false_iff, Ne, assigns_iff]
    rintro ⟨other, member, bit, same⟩
    have letters := congrArg (fun text : String => text.toList.takeWhile isWordSign) same
    simp only [Clause.fix, takeWhile_define named,
      takeWhile_define (namedAll other member)] at letters
    exact apart (String.toList_inj.mp letters ▸ member)
  rw [opened, List.filter_cons, kept]
  rfl

theorem holdsOpened_define {names : List String} (namedAll : ∀ other ∈ names, IsName other)
    (apart : name ∉ names) (filled : term.Filled) (bracketed : term.narrow.Bracketed)
    (value : Assignment) :
    HoldsOpened names value [(Clause.define name term).text] ↔ value name = term.eval value := by
  rw [HoldsOpened, opened_define named namedAll apart, List.forall_mem_singleton]
  exact holdsText_define named filled bracketed value

end Definitions

end Formula

end Zkvm
