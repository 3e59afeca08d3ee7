import CypherSql.Proofs.Condition.Ways
import CypherSql.Sql.Selection

/-! # What the leaves of a filter say about rows

A row gives each of its columns a value or `NULL`, and an assignment gives a row to every
row source.  The leaves that come from the shape of a pattern compare columns of such
rows, while the predicates of a query may test anything.

* `Record` — a row.
* `Test.holds`, `Leaf.holds` — what a leaf says about an assignment of rows.
-/

namespace CypherSql.Sql

variable {V : Type} [DecidableEq V]

/-- A row: what each column holds, nothing for `NULL`. -/
abbrev Record (V : Type) : Type :=
  String → Option V

/-- Equality in SQL.  `NULL` equals nothing, not even itself. -/
def equal (left right : Option V) : Bool :=
  left.isSome && left == right

/-- Whether a test of the shape of a pattern holds for rows.  `constant` is the value that
a text between quotes stands for. -/
def Test.holds (constant : String → V) (rows : Alias → Record V) : Test → Bool
  | hasType row label => equal (rows row "type") (some (constant label))
  | sameId left right => equal (rows left "id") (rows right "id")
  | runsFrom relation node => equal (rows relation "from_id") (rows node "id")
  | runsTo relation node => equal (rows relation "to_id") (rows node "id")

/-- Whether a leaf holds, when `test` says which tests and `predicate` which predicates
do.  A predicate that is unknown does not hold. -/
def Leaf.holds (test : Test → Bool) (predicate : Fragment → Bool) : Leaf → Bool
  | shape shapeTest => test shapeTest
  | .predicate fragment => predicate fragment
  | never => false

end CypherSql.Sql
