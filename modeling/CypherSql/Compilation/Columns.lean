import CypherSql.Cypher.Printer
import CypherSql.Text.Identifier
import CypherSql.Compilation.Compiled

/-! # The columns of a result

* `Projection` — what an item of `RETURN` is called and what it holds.
* `Layout` — the columns that the items become.
* `Layout.add` — the columns of one more item.
-/

namespace CypherSql

structure Projection where
  name : String
  kind : ResultKind
  deriving DecidableEq, Repr

namespace Compilation

open CypherSql.Cypher (ProjectionItem)
open CypherSql.Sql (Column)

/-- The columns of the items so far.  `keys` numbers those that hold no aggregate, and
`aggregated` says whether some item uses one. -/
structure Layout where
  columns : List Column
  keys : List Nat
  aggregated : Bool
  projections : List Projection

namespace Layout

def empty : Layout :=
  ⟨[], [], false, []⟩

/-- What an item is called: its name, else its text. -/
def itemName (item : ProjectionItem) : String :=
  item.name.getD item.expression.text

def columnName (item : ProjectionItem) : Option String :=
  item.name.filter Text.isIdentifier

/-- The columns of an item and whether they can be keys.  Only an item of a single
column hands its name on to it. -/
def columnsOf (item : ProjectionItem) (compiled : Compiled) : List Column × Bool :=
  let name := columnName item
  match compiled.aggregate with
  | some (aggregate, argument) => ([⟨argument, some aggregate, name⟩], false)
  | none =>
    -- An aggregate inside a larger expression leaves a column that nothing can merge.
    if compiled.aggregates then ([⟨compiled.sql, none, name⟩], false)
    else
      match compiled.columns with
      | [column] => ([⟨column, none, name⟩], true)
      | columns => (columns.map Column.plain, true)

def add (layout : Layout) (item : ProjectionItem) (compiled : Compiled) : Layout :=
  let (columns, areKeys) := columnsOf item compiled
  let first := layout.columns.length
  { columns := layout.columns ++ columns
    keys := if areKeys then layout.keys ++ List.range' first columns.length else layout.keys
    aggregated := layout.aggregated || compiled.aggregates
    projections := layout.projections ++ [⟨itemName item, compiled.kind⟩] }

/-- What the result is grouped by: all keys, when some item aggregates. -/
def grouping (layout : Layout) : List Nat :=
  if layout.aggregated then layout.keys else []

end Layout

end Compilation

end CypherSql
