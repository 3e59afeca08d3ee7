import CypherSql.Compilation.Columns
import CypherSql.Json

/-! # Rows of a result

A database returns flat rows of cells.  What is known about the columns is
enough to put nodes and relationships together again.

* `Value` — one item of a result.
* `rowValues` — the values of a row.
-/

namespace CypherSql

inductive Value where
  | node (id value : Json) (type : String)
  | relationship (id start finish : Json) (type : String)
  | scalar (cell : Json)

inductive RowError where
  | shape (expected found : Nat)
  | invalidType (index : Nat) (cell : Json)

def RowError.message : RowError → String
  | shape expected found =>
    "row has " ++ toString found ++ " cells, projections need " ++ toString expected
  | invalidType index cell =>
    "cell " ++ toString index ++ " should hold a type name, found " ++ cell.compact

def rowWidth : List Projection → Nat
  | [] => 0
  | projection :: projections => projection.kind.width + rowWidth projections

def typeOfCell (index : Nat) : Json → Except RowError String
  | .text name => .ok name
  | cell => .error (.invalidType index cell)

/-- The values of the cells from number `index` on, in a row that should have
`expected`. -/
def valuesFrom (expected index : Nat) :
    List Projection → List Json → Except RowError (List Value)
  | [], _ => .ok []
  | projection :: projections, cells =>
    match projection.kind, cells with
    | .node, id :: value :: type :: rest => do
      let name ← typeOfCell (index + 2) type
      return .node id value name :: (← valuesFrom expected (index + 3) projections rest)
    | .relationship, id :: start :: finish :: type :: rest => do
      let name ← typeOfCell (index + 3) type
      return .relationship id start finish name ::
        (← valuesFrom expected (index + 4) projections rest)
    | .scalar, cell :: rest => do
      return .scalar cell :: (← valuesFrom expected (index + 1) projections rest)
    | _, _ => .error (.shape expected 0)

def rowValues (projections : List Projection) (cells : List Json) :
    Except RowError (List Value) :=
  let expected := rowWidth projections
  if cells.length ≠ expected then .error (.shape expected cells.length)
  else valuesFrom expected 0 projections cells

end CypherSql
