import CypherSql.Condition
import CypherSql.Cypher.Printer
import CypherSql.Graph.Slot

/-! # SQL expressions as lexemes

An SQL expression is kept as the list of its lexemes, in the order in which they are
written.  Larger expressions are put together from smaller ones by concatenation,
so the list says exactly what a database will read.

* `Alias` — the name of a row source.
* `Test` — a structural test between rows.
* `Subselect` — the rows an `EXISTS` looks for.
* `Lexeme`, `Fragment` — the parts of an expression and the expression.
-/

namespace CypherSql.Sql

open CypherSql.Cypher
open CypherSql.Graph (Slot SlotKind)

/-! ## Row sources -/

/-- The name of a row source: a slot of the query graph, a slot of the pattern an
`EXISTS` looks for, or a name that was given. -/
inductive Alias where
  | outer (slot : Slot)
  | inner (slot : Slot)
  | named (name : String)
  deriving DecidableEq, Repr

def letter : SlotKind → String
  | .node => "a"
  | .relation => "r"

def Alias.text : Alias → String
  | outer slot => letter slot.kind ++ toString slot.index
  | inner slot => letter slot.kind ++ "w" ++ toString slot.index
  | named name => name

/-- The columns of the row behind a slot. -/
def rowColumns : SlotKind → List String
  | .node => ["id", "value", "type"]
  | .relation => ["id", "from_id", "to_id", "type"]

/-! ## Structural tests -/

inductive Test where
  | hasType (row : Alias) (label : String)
  | sameId (left right : Alias)
  | runsFrom (relation node : Alias)
  | runsTo (relation node : Alias)
  deriving DecidableEq, Repr

def Test.text : Test → String
  | hasType row label => row.text ++ ".type = '" ++ label ++ "'"
  | sameId left right => left.text ++ ".id = " ++ right.text ++ ".id"
  | runsFrom relation node => relation.text ++ ".from_id = " ++ node.text ++ ".id"
  | runsTo relation node => relation.text ++ ".to_id = " ++ node.text ++ ".id"

/-! ## Sub-selects -/

/-- The rows an `EXISTS` looks for: tables under their aliases, and what their rows
must satisfy. -/
structure Subselect where
  sources : List (String × Alias)
  condition : Condition Test

def Subselect.text (sub : Subselect) : String :=
  let sources := sub.sources.map fun (table, name) => table ++ " " ++ name.text
  let condition := sub.condition.text Test.text
  "SELECT 1" ++ (if sources.isEmpty then "" else "\nFROM (" ++ ", ".intercalate sources ++ ")") ++
    (if condition.isEmpty then "" else "\nWHERE " ++ condition)

/-! ## Lexemes -/

inductive Lexeme where
  /-- A column of a row source, possibly a path of several names. -/
  | field (row : Alias) (path : List String)
  /-- A name that nothing in the query binds, left for the database to resolve. -/
  | word (name : String)
  | literal (value : Literal)
  | star
  | existing (sub : Subselect)
  /-- Text that was given as it stands. -/
  | given (text : String)
  | compare (operator : ComparisonOperator)
  | add (operator : AdditiveOperator)
  | multiply (operator : MultiplicativeOperator)
  | like
  | negate
  | not
  | and
  | or
  | function (name : String)
  | distinct
  | comma
  | opening
  | closing

/-- A constant in SQL.  Text is put between quotes as it is. -/
def literalText : Literal → String
  | .string text => "'" ++ text ++ "'"
  | .integer value => toString value
  | .float value => String.ofList value.sixPlaces
  | .boolean value => if value then "true" else "false"
  | .null => "NULL"

/-- A lexeme with the spaces that belong to it. -/
def Lexeme.text : Lexeme → String
  | field row path => row.text ++ "." ++ ".".intercalate path
  | word name => name
  | literal value => literalText value
  | star => "*"
  | existing sub => "EXISTS (" ++ sub.text ++ ")"
  | given text => text
  | compare operator => " " ++ operator.symbol ++ " "
  | add operator => " " ++ operator.symbol ++ " "
  | multiply operator => " " ++ operator.symbol ++ " "
  | like => " LIKE "
  | negate => "-"
  | not => "NOT "
  | and => " AND "
  | or => " OR "
  | function name => name
  | distinct => "DISTINCT "
  | comma => ", "
  | opening => "("
  | closing => ")"

abbrev Fragment : Type :=
  List Lexeme

namespace Fragment

def text (fragment : Fragment) : String :=
  String.join (fragment.map Lexeme.text)

def given (text : String) : Fragment :=
  [.given text]

def joined (separator : Lexeme) (parts : List Fragment) : Fragment :=
  [separator].intercalate parts

def parenthesized (fragment : Fragment) : Fragment :=
  .opening :: fragment ++ [.closing]

end Fragment

end CypherSql.Sql
