import CypherSql.Proofs.Sql.Places

/-! # Formulas are read from their text

A database is given text, not lexemes.  Where the operands of `AND`, `OR` and `NOT` are texts in
which none of these words stands by itself, the text of a formula can be divided into its words in
one way only, and so it is read in one way.

* `isAtomic` — texts that stand as one operand: brackets and quotes in them are closed.
* `word` — the first word of a text, and what is behind it.
* `Spelled` — fragments whose words can be told apart, `Spelled.eq_of_letters`.
* `Phrase.isFormula` — phrases of `AND`, `OR`, `NOT`, parentheses and operands.
* `ReadsText` — what SQL reads in a text; `readsText_text_iff`, it reads what was written.
* `Fragment.textWith` — a text with another one put into its places, `text_fill`.
-/

namespace CypherSql.Sql

/-! ## Atomic texts -/

/-- How many brackets are open, and whether a quote is. -/
structure Nesting where
  depth : Nat
  quoted : Bool
  deriving DecidableEq, Repr

namespace Nesting

def outer : Nesting :=
  ⟨0, false⟩

def isOuter (nesting : Nesting) : Bool :=
  nesting.depth == 0 && !nesting.quoted

def next : Nesting → Char → Nesting
  -- A quote that is written twice closes a text and opens it again.
  | ⟨depth, true⟩, c => ⟨depth, c != '\''⟩
  | ⟨depth, false⟩, c =>
    if c == '\'' then ⟨depth, true⟩
    else if c == '(' then ⟨depth + 1, false⟩
    else if c == ')' then ⟨depth - 1, false⟩
    else ⟨depth, false⟩

end Nesting

/-- What stands directly behind an operand. -/
def endsOperand (letters : List Char) : Bool :=
  [' ', 'A', 'N', 'D', ' '].isPrefixOf letters || [' ', 'O', 'R', ' '].isPrefixOf letters ||
    [')'].isPrefixOf letters

/-- What stands in front of an operand and is no part of it. -/
def opensOperand (letters : List Char) : Bool :=
  ['N', 'O', 'T', ' '].isPrefixOf letters || ['('].isPrefixOf letters

/-- From here on no operator and no closing bracket stands outside of brackets and quotes, which are
all closed at the end. -/
def staysOperand (nesting : Nesting) : List Char → Bool
  | [] => nesting.isOuter
  | c :: rest =>
    -- The space that may follow belongs to an operator, too.
    !(nesting.isOuter && endsOperand (c :: rest ++ [' '])) && staysOperand (nesting.next c) rest

/-- A text that can stand as an operand and is read as one. -/
def isAtomic (text : String) : Bool :=
  !text.toList.isEmpty && !opensOperand (text.toList ++ [' ']) && staysOperand .outer text.toList

/-! ## Words -/

/-- The operand at the start of a text, and what is behind it. -/
def takeOperand (nesting : Nesting) : List Char → List Char × List Char
  | [] => ([], [])
  | c :: rest =>
    if nesting.isOuter && endsOperand (c :: rest) then ([], c :: rest)
    else
      let (operand, behind) := takeOperand (nesting.next c) rest
      (c :: operand, behind)

/-- The first word of a text, and what is behind it. -/
def word : List Char → Lexeme × List Char
  | ' ' :: 'A' :: 'N' :: 'D' :: ' ' :: rest => (.and, rest)
  | ' ' :: 'O' :: 'R' :: ' ' :: rest => (.or, rest)
  | 'N' :: 'O' :: 'T' :: ' ' :: rest => (.not, rest)
  | '(' :: rest => (.opening, rest)
  | ')' :: rest => (.closing, rest)
  | letters => (.given (String.ofList (takeOperand .outer letters).1),
      (takeOperand .outer letters).2)

/-- An operand can end in front of these letters. -/
def Stops (letters : List Char) : Prop :=
  letters = [] ∨ endsOperand letters = true

section

variable {letters behind : List Char}

theorem Stops.cases (stops : Stops behind) : behind = [] ∨
    (∃ rest, behind = ' ' :: 'A' :: 'N' :: 'D' :: ' ' :: rest) ∨
    (∃ rest, behind = ' ' :: 'O' :: 'R' :: ' ' :: rest) ∨ ∃ rest, behind = ')' :: rest := by
  rcases stops with rfl | ends
  · exact .inl rfl
  · simp only [endsOperand, Bool.or_eq_true, List.isPrefixOf_iff_prefix] at ends
    rcases ends with (⟨rest, rfl⟩ | ⟨rest, rfl⟩) | ⟨rest, rfl⟩
    · exact .inr (.inl ⟨rest, rfl⟩)
    · exact .inr (.inr (.inl ⟨rest, rfl⟩))
    · exact .inr (.inr (.inr ⟨rest, rfl⟩))

/-- Where letters go on, an operator that begins in them ends in them or in the next space. -/
theorem endsOperand_append (stops : Stops behind) (present : letters ≠ [])
    (ends : endsOperand (letters ++ behind) = true) : endsOperand (letters ++ [' ']) = true := by
  rcases stops.cases with rfl | ⟨rest, rfl⟩ | ⟨rest, rfl⟩ | ⟨rest, rfl⟩ <;>
    match letters with
    | [] => contradiction
    | [_] | [_, _] | [_, _, _] | [_, _, _, _] | _ :: _ :: _ :: _ :: _ :: _ =>
      simp [endsOperand, List.isPrefixOf] at ends ⊢
      grind

theorem opensOperand_append (stops : Stops behind) (present : letters ≠ [])
    (opens : opensOperand (letters ++ behind) = true) : opensOperand (letters ++ [' ']) = true := by
  rcases stops.cases with rfl | ⟨rest, rfl⟩ | ⟨rest, rfl⟩ | ⟨rest, rfl⟩ <;>
    match letters with
    | [] => contradiction
    | [_] | [_, _] | [_, _, _] | _ :: _ :: _ :: _ :: _ =>
      simp [opensOperand, List.isPrefixOf] at opens ⊢
      grind

theorem takeOperand_append (stops : Stops behind) {nesting : Nesting}
    (stays : staysOperand nesting letters = true) :
    takeOperand nesting (letters ++ behind) = (letters, behind) := by
  induction letters generalizing nesting with
  | nil =>
    rcases stops with rfl | ends
    · rfl
    · obtain ⟨c, rest, rfl⟩ :=
        List.exists_cons_of_ne_nil (l := behind) (by rintro rfl; contradiction)
      rw [staysOperand] at stays
      simp [takeOperand, stays, ends]
  | cons c rest ih =>
    simp only [staysOperand, Bool.and_eq_true, Bool.not_eq_true'] at stays
    obtain ⟨goesOn, stays⟩ := stays
    have goesOn : (nesting.isOuter && endsOperand (c :: rest ++ behind)) = false := by
      refine Bool.eq_false_iff.mpr fun ends => Bool.eq_false_iff.mp goesOn ?_
      obtain ⟨outer, ends⟩ := Bool.and_eq_true_iff.mp ends
      exact Bool.and_eq_true_iff.mpr
        ⟨outer, endsOperand_append stops (List.cons_ne_nil c rest) ends⟩
    rw [List.cons_append] at goesOn ⊢
    simp [takeOperand, goesOn, ih stays]

theorem word_of_operand (goesOn : endsOperand letters = false)
    (begins : opensOperand letters = false) : word letters =
      (.given (String.ofList (takeOperand .outer letters).1), (takeOperand .outer letters).2) := by
  unfold word
  split
  · simp [endsOperand] at goesOn
  · simp [endsOperand] at goesOn
  · simp [opensOperand] at begins
  · simp [opensOperand] at begins
  · simp [endsOperand] at goesOn
  · rfl

theorem word_of_atomic (stops : Stops behind) {text : String} (atomic : isAtomic text = true) :
    word (text.toList ++ behind) = (.given text, behind) := by
  simp only [isAtomic, Bool.and_eq_true, Bool.not_eq_true', List.isEmpty_eq_false_iff] at atomic
  obtain ⟨⟨present, begins⟩, stays⟩ := atomic
  have goesOn : endsOperand (text.toList ++ [' ']) = false := by
    obtain ⟨c, rest, isText⟩ := List.exists_cons_of_ne_nil present
    rw [isText] at stays ⊢
    simpa [staysOperand, Nesting.isOuter, Nesting.outer] using (Bool.and_eq_true_iff.mp stays).1
  rw [word_of_operand, takeOperand_append stops stays, String.ofList_toList]
  · exact Bool.eq_false_iff.mpr fun ends =>
      Bool.eq_false_iff.mp goesOn (endsOperand_append stops present ends)
  · exact Bool.eq_false_iff.mpr fun opens =>
      Bool.eq_false_iff.mp begins (opensOperand_append stops present opens)

end

/-! ## Fragments whose words can be told apart -/

namespace Fragment

def letters (fragment : Fragment) : List Char :=
  fragment.flatMap fun lexeme => lexeme.text.toList

theorem toList_text (fragment : Fragment) : fragment.text.toList = fragment.letters := by
  induction fragment with
  | nil => rfl
  | cons lexeme rest ih =>
    rw [text, List.map_cons, String.join_cons, String.toList_append, ← text, ih]
    rfl

end Fragment

/-- The words that stand around the operands of a formula. -/
def Lexeme.isConnective : Lexeme → Bool
  | .and | .or | .not | .opening | .closing => true
  | _ => false

/-- A row of words in which every operand is an atomic text that ends where it has to. -/
inductive Spelled : Fragment → Prop where
  | nil : Spelled []
  | operand {text : String} {rest : Fragment} (atomic : isAtomic text = true)
      (stops : Stops rest.letters) (spelled : Spelled rest) : Spelled (.given text :: rest)
  | connective {lexeme : Lexeme} {rest : Fragment} (isOne : lexeme.isConnective = true)
      (spelled : Spelled rest) : Spelled (lexeme :: rest)

/-- The first word of a text is the one that was written first. -/
theorem Spelled.word_letters {lexeme : Lexeme} {rest : Fragment}
    (spelled : Spelled (lexeme :: rest)) :
    word (Fragment.letters (lexeme :: rest)) = (lexeme, rest.letters) ∧ Spelled rest := by
  cases spelled with
  | operand atomic stops spelled => exact ⟨word_of_atomic stops atomic, spelled⟩
  | connective isOne spelled =>
    refine ⟨?_, spelled⟩
    cases lexeme <;> first | contradiction | rfl

theorem Spelled.letters_ne_nil {lexeme : Lexeme} {rest : Fragment}
    (spelled : Spelled (lexeme :: rest)) : Fragment.letters (lexeme :: rest) ≠ [] := by
  intro none
  have first := spelled.word_letters.1
  rw [none] at first
  cases spelled with
  | operand atomic =>
    obtain rfl := Lexeme.given.inj (congrArg Prod.fst first)
    contradiction
  | connective isOne =>
    obtain rfl := congrArg Prod.fst first
    contradiction

/-- A text is divided into words in one way. -/
theorem Spelled.eq_of_letters {first second : Fragment} (spelled : Spelled first)
    (spelled' : Spelled second) (same : first.letters = second.letters) : first = second := by
  induction first generalizing second with
  | nil =>
    cases second with
    | nil => rfl
    | cons => exact absurd same.symm spelled'.letters_ne_nil
  | cons lexeme rest ih =>
    cases second with
    | nil => exact absurd same spelled.letters_ne_nil
    | cons lexeme' rest' =>
      obtain ⟨isFirst, spelledRest⟩ := spelled.word_letters
      obtain ⟨isFirst', spelledRest'⟩ := spelled'.word_letters
      rw [same, isFirst'] at isFirst
      obtain ⟨rfl, sameRest⟩ := Prod.mk.inj isFirst
      rw [ih spelledRest spelledRest' sameRest.symm]

/-! ## Formulas -/

/-- Operators of logic and parentheses over texts for which `stands` holds. -/
inductive IsFormula (stands : String → Prop) : Phrase → Prop where
  | operand {text : String} (isOne : stands text) : IsFormula stands (.operand (.given text) rfl)
  | group {inner : Phrase} (formula : IsFormula stands inner) : IsFormula stands (.group inner)
  | not {inner : Phrase} (formula : IsFormula stands inner) : IsFormula stands (.unary .not inner)
  | binary {operator : Binary} {left right : Phrase} (logical : operator = .or ∨ operator = .and)
      (ofLeft : IsFormula stands left) (ofRight : IsFormula stands right) :
      IsFormula stands (.binary operator left right)

/-- A formula over atomic texts. -/
abbrev IsWritten : Phrase → Prop :=
  IsFormula fun text => isAtomic text = true

theorem stops_letters_cons {lexeme : Lexeme}
    (ends : lexeme = .or ∨ lexeme = .and ∨ lexeme = .closing)
    (rest : Fragment) : Stops (Fragment.letters (lexeme :: rest)) := by
  rcases ends with rfl | rfl | rfl <;> exact .inr rfl

theorem IsFormula.spelled {phrase : Phrase} (formula : IsWritten phrase) {rest : Fragment}
    (spelled : Spelled rest) (stops : Stops rest.letters) : Spelled (phrase.fragment ++ rest) := by
  induction formula generalizing rest with
  | operand atomic => exact .operand atomic stops spelled
  | @group inner _ ih =>
    have written : (Phrase.group inner).fragment ++ rest =
        .opening :: (inner.fragment ++ .closing :: rest) := by
      simp [Phrase.fragment, Fragment.parenthesized]
    rw [written]
    exact .connective rfl (ih (.connective rfl spelled) (stops_letters_cons (by simp) rest))
  | not _ ih => exact .connective rfl (ih spelled stops)
  | @binary operator left right logical _ _ ofLeft ofRight =>
    rw [Phrase.fragment, List.append_assoc, List.cons_append]
    rcases logical with rfl | rfl <;>
      exact ofLeft (.connective rfl (ofRight spelled stops))
        (stops_letters_cons (by simp [Binary.lexeme]) _)

/-- SQL reads a text as a formula over atomic texts. -/
structure ReadsText (text : String) (phrase : Phrase) : Prop where
  formula : IsWritten phrase
  fits : phrase.fits .sql 1 = true
  written : phrase.fragment.text = text

/-- Formulas that are written alike consist of the same words. -/
theorem IsFormula.fragment_eq {first second : Phrase} (formula : IsWritten first)
    (formula' : IsWritten second) (same : first.fragment.text = second.fragment.text) :
    first.fragment = second.fragment := by
  have spelled := formula.spelled .nil (.inl rfl)
  have spelled' := formula'.spelled .nil (.inl rfl)
  rw [List.append_nil] at spelled spelled'
  apply spelled.eq_of_letters spelled'
  rw [← Fragment.toList_text, same, Fragment.toList_text]

/-- In the text of a formula nothing is read but the formula. -/
theorem readsText_text_iff {phrase : Phrase} (formula : IsWritten phrase)
    (fit : phrase.fits .sql 1 = true) (other : Phrase) :
    ReadsText phrase.fragment.text other ↔ other = phrase := by
  constructor
  · rintro ⟨otherFormula, otherFits, written⟩
    exact Phrase.eq_of_fits otherFits fit (otherFormula.fragment_eq formula written)
  · rintro rfl
    exact ⟨formula, fit, rfl⟩

/-- A formula leaves a trace. -/
theorem ReadsText.ne_empty {text : String} {phrase : Phrase} (reads : ReadsText text phrase) :
    text ≠ "" := by
  rintro rfl
  have present : phrase.fragment ≠ [] := by
    cases phrase <;> simp [Phrase.fragment, Fragment.parenthesized]
  obtain ⟨lexeme, rest, isFragment⟩ := List.exists_cons_of_ne_nil present
  have spelled := reads.formula.spelled .nil (.inl rfl)
  rw [List.append_nil, isFragment] at spelled
  apply spelled.letters_ne_nil
  rw [← isFragment, ← Fragment.toList_text, reads.written]
  rfl

/-! ## Texts with places -/

/-- The text of a fragment with a text in each of its places. -/
def Fragment.textWith (value : String) (fragment : Fragment) : String :=
  String.join (fragment.map fun lexeme => if lexeme.isPlace then value else lexeme.text)

/-- A formula over atomic texts and places. -/
abbrev IsFrame : Phrase → Prop :=
  IsFormula fun text => text = "" ∨ isAtomic text = true

theorem Fragment.textWith_append (value : String) (first second : Fragment) :
    Fragment.textWith value (first ++ second) =
      Fragment.textWith value first ++ Fragment.textWith value second := by
  simp [Fragment.textWith]

theorem Fragment.textWith_cons (value : String) (lexeme : Lexeme) (rest : Fragment) :
    Fragment.textWith value (lexeme :: rest) =
      (if lexeme.isPlace then value else lexeme.text) ++ Fragment.textWith value rest := by
  simp [Fragment.textWith]

theorem not_isPlace_of_isAtomic {text : String} (atomic : isAtomic text = true) :
    (Lexeme.given text).isPlace = false := by
  refine beq_eq_false_iff_ne.mpr ?_
  rintro rfl
  contradiction

section

variable {shape value : Phrase} (frame : IsFrame shape)

include frame

/-- Filling the places of a formula puts the text of what is filled in there. -/
theorem IsFormula.text_fill (alone : Bool) : (shape.fill value value alone).fragment.text =
    shape.fragment.textWith value.fragment.text := by
  induction frame generalizing alone with
  | @operand text isOne =>
    simp only [Phrase.fill, ite_self, Phrase.fragment, Fragment.textWith, List.map_singleton]
    split <;> simp [Phrase.fragment, Fragment.text]
  | group _ ih =>
    simp [Phrase.fill, Phrase.fragment, Fragment.parenthesized, Fragment.textWith_cons,
      Fragment.textWith_append, Fragment.text_cons, Fragment.text_append, ih, Lexeme.isPlace]
    simp [Fragment.textWith, Fragment.text]
  | not _ ih =>
    simp [Phrase.fill, Phrase.fragment, Fragment.textWith_cons, Fragment.text_cons, ih,
      Phrase.isPlace_lexeme']
  | @binary operator left right logical _ _ ofLeft ofRight =>
    simp [Phrase.fill, Phrase.fragment, Fragment.textWith_cons, Fragment.textWith_append,
      Fragment.text_cons, Fragment.text_append, ofLeft, ofRight, Phrase.isPlace_lexeme]

theorem IsFormula.fill (formula : IsWritten value) (alone : Bool) :
    IsWritten (shape.fill value value alone) := by
  induction frame generalizing alone with
  | operand isOne =>
    simp only [Phrase.fill, ite_self]
    rcases isOne with rfl | atomic
    · exact formula
    · rw [not_isPlace_of_isAtomic atomic]
      exact .operand atomic
  | group _ ih => exact .group (ih true)
  | not _ ih => exact .not (ih false)
  | binary logical _ _ ofLeft ofRight => exact .binary logical (ofLeft false) (ofRight false)

/-- What fits everywhere is read in every place as it is read by itself. -/
theorem IsFormula.readsText_fill_iff (fit : shape.fits .sql 1 = true) (formula : IsWritten value)
    (valueFits : ∀ level, value.fits .sql level = true) (other : Phrase) :
    ReadsText (shape.fragment.textWith value.fragment.text) other ↔
      other = shape.fill value value true := by
  rw [← frame.text_fill true]
  exact readsText_text_iff (frame.fill formula true)
    ((Phrase.fits_fill_iff true shape 1).mpr ⟨fit, fun level _ => valueFits level⟩) other

end

end CypherSql.Sql
