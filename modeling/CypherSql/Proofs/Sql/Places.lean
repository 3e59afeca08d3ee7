import CypherSql.Proofs.Sql.Readings

/-! # Places in a phrase

A phrase may have places, where other phrases are put.  A place that is all that stands between two
brackets takes a phrase as it is, any other place may take it between parentheses.

* `Phrase.fill` — a phrase with its places filled.
* `Fragment.fill` — the same for what is written; the two agree.
* `Phrase.demands`, `Phrase.Admits` — how tightly what is put into the places has to bind.
* `Phrase.fits_fill_iff` — a phrase without parentheses fits exactly where the demands are met.
-/

namespace CypherSql.Sql

/-- A place is written as text that no expression has. -/
def Lexeme.isPlace : Lexeme → Bool
  | given text => text == ""
  | _ => false

def Lexeme.place : Lexeme :=
  .given ""

/-- What stands directly behind this lexeme is the first in its brackets. -/
def Lexeme.opens : Lexeme → Bool
  | opening | distinct => true
  | _ => false

/-! ## Filling -/

namespace Phrase

/-- Puts `value` into every place that is alone, and `enclosed` into every other one. -/
def fill : Phrase → (value enclosed : Phrase) → (alone : Bool) → Phrase
  | operand lexeme stands, value, enclosed, alone =>
    if lexeme.isPlace then (if alone then value else enclosed) else .operand lexeme stands
  | group inner, value, enclosed, _ => .group (inner.fill value enclosed true)
  | count distinct argument, value, enclosed, _ =>
    .count distinct (argument.fill value enclosed true)
  | power base exponent, value, enclosed, _ =>
    .power (base.fill value enclosed false) (exponent.fill value enclosed false)
  | unary operator inner, value, enclosed, _ =>
    .unary operator (inner.fill value enclosed false)
  | binary operator left right, value, enclosed, _ =>
    .binary operator (left.fill value enclosed false) (right.fill value enclosed false)

/-- How tightly each place asks for what is put there, in the order in which they are written. -/
def demands : Nat → Phrase → List Nat
  | level, operand lexeme _ => if lexeme.isPlace then [level] else []
  | _, group inner => inner.demands 1
  | _, count _ argument => argument.demands 1
  | _, power base exponent => base.demands 1 ++ exponent.demands 1
  | _, unary operator inner => inner.demands operator.operandLevel
  | _, binary operator left right =>
    left.demands (Precedence.sql operator) ++ right.demands (Precedence.sql operator + 1)

end Phrase

namespace Fragment

/-- Whether the brackets end in front of a fragment. -/
def ends : Fragment → Bool
  | [] => true
  | .closing :: _ => true
  | _ => false

/-- Puts `value` into every place that is alone in its brackets, and `enclosed` into every other
one.  At the start of the fragment brackets may have been opened. -/
def fill : Fragment → (value enclosed : Fragment) → (start : Bool) → Fragment
  | [], _, _, _ => []
  | lexeme :: rest, value, enclosed, start =>
    if lexeme.isPlace then (if start && ends rest then value else enclosed) ++
      fill rest value enclosed false
    else lexeme :: fill rest value enclosed lexeme.opens

end Fragment

namespace Phrase

/-- A value binds as tightly as each place of a phrase asks. -/
def Admits (shape value : Phrase) : Prop :=
  ∀ level ∈ shape.demands 1, value.fits .sql level = true

theorem isPlace_lexeme (operator : Binary) : operator.lexeme.isPlace = false := by
  cases operator <;> rfl

theorem opens_lexeme (operator : Binary) : operator.lexeme.opens = false := by
  cases operator <;> rfl

theorem ends_lexeme (operator : Binary) (rest : Fragment) :
    Fragment.ends (operator.lexeme :: rest) = false := by
  cases operator <;> rfl

theorem isPlace_lexeme' (operator : Unary) : operator.lexeme.isPlace = false := by
  cases operator <;> rfl

theorem opens_lexeme' (operator : Unary) : operator.lexeme.opens = false := by
  cases operator <;> rfl

theorem opens_of_isOperand {lexeme : Lexeme} (stands : lexeme.isOperand = true) :
    lexeme.opens = false := by
  cases lexeme <;> first | rfl | contradiction

/-- Filling a phrase fills what is written, whatever comes behind it. -/
theorem fill_fragment_append (value enclosed : Phrase) (phrase : Phrase) (start : Bool)
    (rest : Fragment) :
    Fragment.fill (phrase.fragment ++ rest) value.fragment enclosed.fragment start =
      (phrase.fill value enclosed (start && Fragment.ends rest)).fragment ++
        Fragment.fill rest value.fragment enclosed.fragment false := by
  induction phrase generalizing start rest with
  | operand lexeme stands =>
    cases isPlace : lexeme.isPlace
    · simp [fragment, Fragment.fill, fill, isPlace, opens_of_isOperand stands]
    · cases alone : start && Fragment.ends rest <;>
        simp [fragment, Fragment.fill, fill, isPlace, alone]
  | group inner ih =>
    simp [fragment, Fragment.parenthesized, Fragment.fill, fill, ih, Lexeme.isPlace, Lexeme.opens,
      Fragment.ends]
  | count distinct argument ih =>
    cases distinct <;>
      simp [fragment, Fragment.fill, fill, ih, Lexeme.isPlace, Lexeme.opens, Fragment.ends]
  | power base exponent first second =>
    simp [fragment, Fragment.fill, fill, first, second, Lexeme.isPlace, Lexeme.opens,
      Fragment.ends]
  | unary operator inner ih =>
    simp [fragment, Fragment.fill, fill, ih, isPlace_lexeme', opens_lexeme']
  | binary operator left right first second =>
    simp [fragment, Fragment.fill, fill, first, second, isPlace_lexeme, opens_lexeme, ends_lexeme]

theorem fragment_fill (value enclosed phrase : Phrase) :
    (phrase.fill value enclosed true).fragment =
      phrase.fragment.fill value.fragment enclosed.fragment true := by
  have filled := fill_fragment_append value enclosed phrase true []
  simpa [Fragment.ends, Fragment.fill] using filled.symm

/-! ## What fits -/

variable {value enclosed : Phrase}

/-- What stands between parentheses does not change how a phrase is read. -/
theorem tree_fill (sameTree : enclosed.tree = value.tree) (alone : Bool) (phrase : Phrase) :
    (phrase.fill value enclosed alone).tree = (phrase.fill value value alone).tree := by
  induction phrase generalizing alone with
  | operand lexeme stands => cases alone <;> simp [fill, apply_ite tree, sameTree]
  | group inner ih => simp [fill, tree, ih]
  | count distinct argument ih => simp [fill, tree, ih]
  | power base exponent first second => simp [fill, tree, first, second]
  | unary operator inner ih => simp [fill, tree, ih]
  | binary operator left right first second => simp [fill, tree, first, second]

/-- A phrase fits with parentheses in its places as it does with empty ones. -/
theorem fits_fill_enclosed {precedence : Precedence} (valueFits : value.fits precedence 1 = true)
    (enclosedFits : ∀ level, enclosed.fits precedence level = true) (phrase : Phrase)
    {alone : Bool} {level : Nat} (loose : alone = true → level = 1) :
    (phrase.fill value enclosed alone).fits precedence level = phrase.fits precedence level := by
  induction phrase generalizing alone level with
  | operand lexeme stands =>
    unfold fill
    split
    · cases alone with
      | true =>
        obtain rfl := loose rfl
        exact valueFits
      | false => exact enclosedFits level
    · rfl
  | group inner ih => exact ih fun _ => rfl
  | count distinct argument ih => exact ih fun _ => rfl
  | power base exponent first second => simp [fill, fits, first, second]
  | unary operator inner ih => simp [fill, fits, ih]
  | binary operator left right first second => simp [fill, fits, first, second]

/-- A phrase fits with a value in its places exactly where the value meets all demands. -/
theorem fits_fill_iff (alone : Bool) (phrase : Phrase) (level : Nat) :
    (phrase.fill value value alone).fits .sql level = true ↔
      phrase.fits .sql level = true ∧
        ∀ demand ∈ phrase.demands level, value.fits .sql demand = true := by
  induction phrase generalizing alone level with
  | operand lexeme stands =>
    cases isPlace : lexeme.isPlace <;> simp [fill, demands, fits, isPlace]
  | group inner ih => exact ih true 1
  | count distinct argument ih => exact ih true 1
  | power base exponent first second =>
    simp [fill, demands, fits, first, second, or_imp, forall_and, and_assoc, and_left_comm]
  | unary operator inner ih =>
    simp [fill, demands, fits, ih, and_assoc]
  | binary operator left right first second =>
    simp [fill, demands, fits, first, second, or_imp, forall_and, and_assoc, and_left_comm]

/-- A phrase without places stays what it is. -/
theorem fill_eq_self {phrase : Phrase} (without : Lexeme.place ∉ phrase.fragment) (alone : Bool) :
    phrase.fill value enclosed alone = phrase := by
  induction phrase generalizing alone with
  | operand lexeme stands =>
    have other : lexeme.isPlace = false := by
      cases lexeme with
      | given text =>
        have nonempty : text ≠ "" := fun empty => without (by simp [fragment, Lexeme.place, empty])
        exact beq_eq_false_iff_ne.mpr nonempty
      | field | word | literal | star | existing => rfl
      | compare | add | multiply | like | negate | not | and | or | function | distinct | comma
      | opening | closing => contradiction
    simp [fill, other]
  | group inner ih =>
    rw [fill, ih fun inside => without (by simp [fragment, Fragment.parenthesized, inside])]
  | count distinct argument ih => rw [fill, ih fun inside => without (by simp [fragment, inside])]
  | power base exponent first second =>
    rw [fill, first fun inside => without (by simp [fragment, inside]),
      second fun inside => without (by simp [fragment, inside])]
  | unary operator inner ih => rw [fill, ih fun inside => without (by simp [fragment, inside])]
  | binary operator left right first second =>
    rw [fill, first fun inside => without (by simp [fragment, inside]),
      second fun inside => without (by simp [fragment, inside])]

end Phrase

end CypherSql.Sql
