import CypherSql.Proofs.Condition.Ways
import CypherSql.Sql.Statement
import Mathlib.Data.List.Dedup

/-! # The tables that statements compute

A statement is evaluated over rows of any type: a reading tells which leaves hold for a row
and what value an expression has there.  A table is a list of rows of cells, and two tables
are the same when one is a permutation of the other, since SQL promises no order.  `LIMIT` and
`OFFSET` come after that and are left out here.

* `Cell` — a value, or a number that a count came to.
* `Reading` — what a database says about rows.
* `groupRows` — `GROUP BY`.
* `Branch.table`, `Statement.table` — the tables.
-/

namespace CypherSql.Sql

inductive Cell (V : Type) where
  | data (value : Option V)
  | number (count : Nat)
  deriving DecidableEq

def Cell.number? {V : Type} : Cell V → Option Nat
  | number count => some count
  | data _ => none

/-- What a database says about rows: which leaves hold for a row, what value an expression
has there, if any, and what an aggregate function that does not count makes of cells. -/
structure Reading (R V : Type) where
  truth : R → Leaf → Bool
  value : R → Fragment → Option V
  otherAggregate : String → Bool → List (Cell V) → Cell V

/-! ## Groups -/

section

variable {α κ : Type} [DecidableEq κ]

/-- The rows that agree on a key, one list for every key that occurs. -/
def groupsBy (key : α → κ) (rows : List α) : List (List α) :=
  (rows.map key).dedup.map fun found => rows.filter fun row => key row = found

/-- The groups of rows.  Without keys all rows are one group when something is
aggregated, even if there are no rows, and else every row is on its own. -/
def groupRows (aggregated : Bool) (keys : List (α → κ)) (rows : List α) : List (List α) :=
  if keys.isEmpty then if aggregated then [rows] else rows.map fun row => [row]
  else groupsBy (fun row => keys.map fun key => key row) rows

def dropRepeated (distinct : Bool) (rows : List κ) : List κ :=
  if distinct then rows.dedup else rows

end

variable {R V : Type} [DecidableEq V]

/-! ## Branches -/

namespace Reading

variable (reading : Reading R V)

/-- How many rows a count counts: those where the expression has a value, and all rows for
a star. -/
def count (rows : List R) (distinct : Bool) (expression : Fragment) : Nat :=
  if expression.text == "*" then rows.length
  else
    (dropRepeated distinct (rows.filterMap fun row => reading.value row expression)).length

/-- What a column makes of a group.  A column without aggregate has the value it has in the
first row. -/
def cell (group : List R) (column : Column) : Cell V :=
  match column.aggregate with
  | none => .data (group.head?.bind fun row => reading.value row column.expression)
  | some aggregate =>
    if aggregate.name == "COUNT" then
      .number (reading.count group aggregate.distinct column.expression)
    else
      reading.otherAggregate aggregate.name aggregate.distinct
        (group.map fun row => .data (reading.value row column.expression))

/-- The value of a member of `GROUP BY`, which may be the name of a column. -/
def keyValue (columns : List Column) (key : Key) (row : R) : Option V :=
  match key with
  | .named name =>
    (columns.find? fun column => column.name == some name).bind fun column =>
      reading.value row column.expression
  | .expression fragment => reading.value row fragment

end Reading

def rowOf (reading : Reading R V) (columns : List Column) (group : List R) : List (Cell V) :=
  columns.map (reading.cell group)

/-- The table of a branch whose sources and joins give these rows. -/
def Branch.table {σ : Type} (reading : Reading R V) (source : List R) (branch : Branch σ) :
    List (List (Cell V)) :=
  let rows := source.filter fun row => branch.condition.holds (reading.truth row)
  let groups := groupRows (branch.columns.any fun column => column.aggregate.isSome)
    (branch.keys.map (reading.keyValue branch.columns)) rows
  dropRepeated branch.distinct (groups.map (rowOf reading branch.columns))

/-! ## Statements -/

def cellNamed (names : List (Option String)) (name : String) (row : List (Cell V)) : Cell V :=
  row.getD (names.idxOf (some name)) (.data none)

/-- The sum of the numbers in a column.  That of no numbers is `NULL`. -/
def sumOf (cells : List (Cell V)) : Cell V :=
  match cells.filterMap Cell.number? with
  | [] => .data none
  | counts => .number counts.sum

def Merged.cell (reading : Reading R V) (names : List (Option String))
    (group : List (List (Cell V))) : Merged → Cell V
  | key name => (group.head?.map (cellNamed names name)).getD (.data none)
  | sum name => sumOf (group.map (cellNamed names name))
  | reapplied function name =>
    reading.otherAggregate function false (group.map (cellNamed names name))

def Merged.aggregates : Merged → Bool
  | key _ => false
  | _ => true

/-- The rows of all branches.  `source` gives the rows that the sources and joins of the branch
with a number give. -/
def unionRows {σ : Type} (reading : Reading R V) (source : Nat → Branch σ → List R)
    (branches : List (Branch σ)) : List (List (Cell V)) :=
  branches.zipIdx.flatMap fun (branch, number) => branch.table reading (source number branch)

/-- The names of the columns of a union, which are those of its first branch. -/
def unionNames {σ : Type} (branches : List (Branch σ)) : List (Option String) :=
  branches.head?.elim [] fun branch => branch.columns.map Column.name

def Statement.table (reading : Reading R V) (source : Nat → Branch Statement → List R) :
    Statement → List (List (Cell V))
  | single branch _ => branch.table reading (source 0 branch)
  | union distinct branches _ => dropRepeated distinct (unionRows reading source branches)
  | merged columns distinct branches keys _ =>
    let names := unionNames branches
    let rows := dropRepeated distinct (unionRows reading source branches)
    let groups := groupRows (columns.any Merged.aggregates) (keys.map (cellNamed names)) rows
    groups.map fun group => columns.map (Merged.cell reading names group)

end CypherSql.Sql
