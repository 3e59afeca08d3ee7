import CypherSql.Sql.Lexeme

/-! # How SQL reads a fragment

A database reads the lexemes of an expression by the precedence of its operators.  A phrase is
what it reads: the operators with their operands, and the parentheses that are written.  A phrase
fits a precedence when every operand binds at least as tightly as its operator asks.

* `Phrase`, `Phrase.fragment` — expressions with their parentheses, and how they are written.
* `Phrase.tree` — which operators apply to what, without the parentheses.
* `Phrase.fits` — phrases that need no further parentheses.
* `Reads`, `Denotes` — the phrase and the operator tree that SQL reads in a fragment.
-/

namespace CypherSql.Sql

open CypherSql.Cypher

/-! ## Operators -/

inductive Binary where
  | or
  | and
  | compare (operator : ComparisonOperator)
  | like
  | add (operator : AdditiveOperator)
  | multiply (operator : MultiplicativeOperator)
  deriving DecidableEq, Repr

inductive Unary where
  | not
  | negate
  deriving DecidableEq, Repr

def Binary.lexeme : Binary → Lexeme
  | or => .or
  | and => .and
  | compare operator => .compare operator
  | like => .like
  | add operator => .add operator
  | multiply operator => .multiply operator

def Unary.lexeme : Unary → Lexeme
  | not => .not
  | negate => .negate

theorem Binary.lexeme_injective {first second : Binary} (same : first.lexeme = second.lexeme) :
    first = second := by
  cases first <;> cases second <;> simp_all [Binary.lexeme]

theorem Unary.lexeme_injective {first second : Unary} (same : first.lexeme = second.lexeme) :
    first = second := by
  cases first <;> cases second <;> simp_all [Unary.lexeme]

/-- Lexemes that are an operand as they stand. -/
def Lexeme.isOperand : Lexeme → Bool
  | field _ _ | word _ | literal _ | star | existing _ | given _ => true
  | _ => false

/-! ## Precedence

From loose to tight: 1 is `OR`, 2 `AND`, 3 `NOT`, 4 comparisons and `LIKE`, 5 sums, 6 products,
7 signs, and 9 is what needs no operator.  Only Cypher has something on 8: its string tests. -/

/-- How tightly SQL binds what a lexeme stands for.  What only separates operands, 0, is looser
than every operator. -/
def Lexeme.level : Lexeme → Nat
  | or => 1
  | and => 2
  | not => 3
  | compare _ | like => 4
  | add _ => 5
  | multiply _ => 6
  | negate => 7
  | comma | distinct | opening | closing => 0
  | _ => 9

/-- A precedence of the binary operators. -/
abbrev Precedence : Type :=
  Binary → Nat

def Precedence.sql : Precedence :=
  fun operator => operator.lexeme.level

/-- In Cypher a string test binds more tightly than every other operator. -/
def Precedence.cypher : Precedence
  | .like => 8
  | operator => operator.lexeme.level

/-- What the operand of an operator that stands in front of it must bind at least as tightly as.
A sign in front of a sign would begin a comment. -/
def Unary.operandLevel : Unary → Nat
  | not => 3
  | negate => 8

def Unary.level (operator : Unary) : Nat :=
  operator.lexeme.level

/-! ## Phrases -/

/-- An expression of SQL with the parentheses that are written in it. -/
inductive Phrase where
  | operand (lexeme : Lexeme) (stands : lexeme.isOperand = true)
  | group (inner : Phrase)
  | count (distinct : Bool) (argument : Phrase)
  | power (base exponent : Phrase)
  | unary (operator : Unary) (inner : Phrase)
  | binary (operator : Binary) (left right : Phrase)

namespace Phrase

def fragment : Phrase → Fragment
  | operand lexeme _ => [lexeme]
  | group inner => inner.fragment.parenthesized
  | count distinct argument =>
    [.function "COUNT", .opening] ++ (if distinct then [.distinct] else []) ++
      argument.fragment ++ [.closing]
  | power base exponent =>
    [.function "POWER", .opening] ++ base.fragment ++ [.comma] ++ exponent.fragment ++ [.closing]
  | unary operator inner => operator.lexeme :: inner.fragment
  | binary operator left right => left.fragment ++ operator.lexeme :: right.fragment

/-- The operators and what they apply to: the phrase without its parentheses. -/
def tree : Phrase → Phrase
  | operand lexeme stands => .operand lexeme stands
  | group inner => inner.tree
  | count distinct argument => .count distinct argument.tree
  | power base exponent => .power base.tree exponent.tree
  | unary operator inner => .unary operator inner.tree
  | binary operator left right => .binary operator left.tree right.tree

/-- The phrase can stand where `level` is asked for, and no operand in it needs parentheses that
are not there.  Operators of one level apply from left to right. -/
def fits (precedence : Precedence) : Nat → Phrase → Bool
  | _, operand _ _ => true
  | _, group inner => inner.fits precedence 1
  | _, count _ argument => argument.fits precedence 1
  | _, power base exponent => base.fits precedence 1 && exponent.fits precedence 1
  | level, unary operator inner =>
    decide (level ≤ operator.level) && inner.fits precedence operator.operandLevel
  | level, binary operator left right =>
    decide (level ≤ precedence operator) && left.fits precedence (precedence operator) &&
      right.fits precedence (precedence operator + 1)

variable {precedence : Precedence}

theorem fits_unary {level : Nat} {operator : Unary} {inner : Phrase} :
    (unary operator inner).fits precedence level = true ↔
      level ≤ operator.level ∧ inner.fits precedence operator.operandLevel = true := by
  simp [fits]

theorem fits_binary {level : Nat} {operator : Binary} {left right : Phrase} :
    (binary operator left right).fits precedence level = true ↔
      level ≤ precedence operator ∧ left.fits precedence (precedence operator) = true ∧
        right.fits precedence (precedence operator + 1) = true := by
  simp [fits, and_assoc]

theorem fits_group {level : Nat} {inner : Phrase} :
    (group inner).fits precedence level = true ↔ inner.fits precedence 1 = true :=
  Iff.rfl

theorem fits_count {level : Nat} {distinct : Bool} {argument : Phrase} :
    (count distinct argument).fits precedence level = true ↔ argument.fits precedence 1 = true :=
  Iff.rfl

theorem fits_power {level : Nat} {base exponent : Phrase} :
    (power base exponent).fits precedence level = true ↔
      base.fits precedence 1 = true ∧ exponent.fits precedence 1 = true := by
  simp [fits]

/-- What fits where a tight operand is asked for fits where a looser one is. -/
theorem fits_mono {phrase : Phrase} {level looser : Nat} (below : looser ≤ level)
    (fit : phrase.fits precedence level = true) : phrase.fits precedence looser = true := by
  cases phrase with
  | operand | group | count | power => exact fit
  | unary operator inner =>
    obtain ⟨reach, inside⟩ := fits_unary.mp fit
    exact fits_unary.mpr ⟨Nat.le_trans below reach, inside⟩
  | binary operator left right =>
    obtain ⟨reach, inside⟩ := fits_binary.mp fit
    exact fits_binary.mpr ⟨Nat.le_trans below reach, inside⟩

end Phrase

/-- Fragments that are joined follow each other, each behind the separator. -/
theorem Fragment.joined_cons (separator : Lexeme) (first : Fragment) (rest : List Fragment) :
    Fragment.joined separator (first :: rest) = first ++ rest.flatMap (separator :: ·) := by
  induction rest generalizing first with
  | nil => simp [Fragment.joined]
  | cons second rest ih =>
    have later := ih second
    simp only [Fragment.joined, List.intercalate_cons_cons] at later ⊢
    simp [later]

theorem Fragment.text_cons (lexeme : Lexeme) (rest : Fragment) :
    Fragment.text (lexeme :: rest) = lexeme.text ++ rest.text := by
  simp [Fragment.text]

@[simp] theorem Fragment.text_singleton (lexeme : Lexeme) :
    Fragment.text [lexeme] = lexeme.text := by
  simp [Fragment.text]

theorem Fragment.text_append (first second : Fragment) :
    Fragment.text (first ++ second) = first.text ++ second.text := by
  simp [Fragment.text]

/-! ## Readings -/

/-- SQL reads a fragment as a phrase, where an expression that binds as tightly as `level` is
asked for. -/
structure Reads (level : Nat) (fragment : Fragment) (phrase : Phrase) : Prop where
  fits : phrase.fits .sql level = true
  written : phrase.fragment = fragment

/-- The operators of a fragment, as SQL reads it. -/
def Denotes (fragment : Fragment) (tree : Phrase) : Prop :=
  ∃ phrase, Reads 1 fragment phrase ∧ phrase.tree = tree

end CypherSql.Sql
