import CypherSql.Decimal.Binary64

/-! # Read queries

The read-only part of Cypher that has a meaning in SQL: any number of `MATCH` and
`WITH` clauses, then one `RETURN`.

* `Pattern` — a node and the hops that leave it, one after the other.
* `Expression` — one type for every level of precedence, from `OR` down to the
  atom.
* `Query` — the clauses of a query.
* `Expression.term?` — the term an expression consists of, if no operator is
  applied anywhere.
-/

namespace CypherSql.Cypher

open CypherSql.Decimal (Binary64)

/-! ## Patterns -/

/-- A node of a pattern, `(n:ip:domain)`.  Its name is the variable it binds. -/
structure NodePattern where
  name : Option String
  labels : List String
  deriving DecidableEq, Repr

/-- A relationship of a pattern, `-[r:has|owns]->`, with the arrowheads written at
its two ends. -/
structure RelationshipPattern where
  name : Option String
  labels : List String
  leftArrow : Bool
  rightArrow : Bool
  deriving DecidableEq, Repr

structure Hop where
  relationship : RelationshipPattern
  node : NodePattern
  deriving DecidableEq, Repr

structure Pattern where
  node : NodePattern
  hops : List Hop
  deriving DecidableEq, Repr

/-! ## Expressions -/

inductive ComparisonOperator where
  | equal
  | notEqual
  | less
  | lessOrEqual
  | greater
  | greaterOrEqual
  deriving DecidableEq, Repr

/-- The steps of a sum. -/
inductive AdditiveOperator where
  | plus
  | minus
  deriving DecidableEq, Repr

/-- The steps of a product. -/
inductive MultiplicativeOperator where
  | times
  | divide
  | modulo
  deriving DecidableEq, Repr

inductive StringOperator where
  | startsWith
  | endsWith
  | contains
  deriving DecidableEq, Repr

/-- A constant.  Numbers carry no sign: a minus is an operator. -/
inductive Literal where
  | string (text : String)
  | integer (value : Nat)
  | float (value : Binary64)
  | boolean (value : Bool)
  | null
  deriving DecidableEq, Repr

mutual

/-- Operands joined by `OR`. -/
structure Expression where
  operands : List Exclusion

/-- Operands joined by `XOR`. -/
structure Exclusion where
  operands : List Conjunction

/-- Operands joined by `AND`. -/
structure Conjunction where
  operands : List Comparison

/-- A sum and the comparisons applied to it, negated when an odd number of `NOT`
stood in front. -/
structure Comparison where
  negated : Bool
  left : Addition
  rest : List (ComparisonOperator × Addition)

/-- A product and the products added to it or taken from it. -/
structure Addition where
  first : Multiplication
  rest : List (AdditiveOperator × Multiplication)

/-- A power and the powers it is multiplied or divided by. -/
structure Multiplication where
  first : Power
  rest : List (MultiplicativeOperator × Power)

/-- Operands joined by `^`. -/
structure Power where
  operands : List Signed

/-- A term with its sign and the string tests applied to it. -/
structure Signed where
  negative : Bool
  term : Term
  tests : List (StringOperator × Term)

structure Term where
  atom : Atom
  path : List String

inductive Atom where
  | name (name : String)
  | literal (value : Literal)
  | call (name : String) (distinct : Bool) (arguments : List Expression)
  | countAll
  | parenthesized (inner : Expression)
  | pattern (pattern : Pattern)

end

/-- The term that makes up the whole expression, when no operator is applied at
any level. -/
def Expression.term? : Expression → Option Term
  | ⟨[⟨[⟨[⟨false, ⟨⟨⟨[⟨false, term, []⟩]⟩, []⟩, []⟩, []⟩]⟩]⟩]⟩ => some term
  | _ => none

/-! ## Clauses -/

structure MatchClause where
  patterns : List Pattern
  predicate : Option Expression

structure ProjectionItem where
  expression : Expression
  name : Option String

structure WithClause where
  items : List ProjectionItem
  predicate : Option Expression

structure ReturnClause where
  distinct : Bool
  items : List ProjectionItem
  skip : Option Expression
  limit : Option Expression

/-- A whole query.  All `MATCH` clauses take effect before all `WITH` clauses,
however they were interleaved. -/
structure Query where
  matchClauses : List MatchClause
  withClauses : List WithClause
  returnClause : ReturnClause

end CypherSql.Cypher
