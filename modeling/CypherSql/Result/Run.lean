import CypherSql.Compilation.Basic
import CypherSql.Result.Row

/-! # Running queries

A query is compiled, its SQL is handed to an executor, and the rows that come back are
decoded.

* `Executor` — what runs SQL: it fails, or yields rows one after the other, any of which
  may be a failure.
* `Run` — the result of a query, the SQL that was run for it and how many rows were
  taken.
* `runQuery` — the whole way from a query to its result.
-/

namespace CypherSql

inductive RunError where
  | query (error : QueryError)
  | execution (reason : String)
  | row (error : RowError)

def RunError.message : RunError → String
  | query error => error.message
  | execution reason => "query execution failed: " ++ reason
  | row error => error.message

/-- What runs SQL, as far as it is modelled: it sees the SQL and nothing else of what a query
compiles to, gives a text as its only reason for a failure, and yields finitely many rows.  The
interface that programs implement is wider: it passes the projections along with the SQL, any
error may be returned from it, and rows may come without an end. -/
abbrev Executor : Type :=
  String → Except String (List (Except String (List Json)))

structure ResultSet where
  projections : List Projection
  rows : List (List Value)

/-- How a query was run.  An executor leaves no trace of its own: `executed` is written down by
`runQuery`, next to the place where it hands the SQL over, and `pulled` is the number of rows that
it looked at. -/
structure Run where
  result : Except RunError ResultSet
  executed : List String
  pulled : Nat

def eventValues (projections : List Projection) :
    Except String (List Json) → Except RunError (List Value)
  | .error reason => .error (.execution reason)
  | .ok cells => (rowValues projections cells).mapError .row

/-- Takes rows up to the first failure, and says how many were taken. -/
def pullRows (projections : List Projection) :
    List (Except String (List Json)) → Except RunError (List (List Value)) × Nat
  | [] => (.ok [], 0)
  | event :: rest =>
    match eventValues projections event with
    | .error error => (.error error, 1)
    | .ok values =>
      let (others, count) := pullRows projections rest
      (others.map (values :: ·), count + 1)

/-- Compiles a query and runs it.  Nothing is run for a query that cannot be compiled. -/
def runQuery (settings : Settings) (executor : Executor) (text : String) : Run :=
  match compileQuery settings text with
  | .error error => ⟨.error (.query error), [], 0⟩
  | .ok compiled =>
    match executor compiled.sql with
    | .error reason => ⟨.error (.execution reason), [compiled.sql], 0⟩
    | .ok events =>
      let (rows, pulled) := pullRows compiled.projections events
      ⟨rows.map fun rows => ⟨compiled.projections, rows⟩, [compiled.sql], pulled⟩

end CypherSql
