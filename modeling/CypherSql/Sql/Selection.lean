import CypherSql.Sql.Lexeme

/-! # Descriptions of SQL queries

* `Column` — an output column, possibly an aggregate.
* `Source` — an entry of `FROM`.
* `Join` — an entry of a list of joins.
* `Leaf` — what the filter of a query tests.
* `Selection` — a query before its disjunctions are turned into unions.
-/

namespace CypherSql.Sql

/-! ## Columns -/

structure Aggregate where
  name : String
  distinct : Bool
  deriving DecidableEq, Repr

/-- The one aggregate that queries can ask for. -/
def Aggregate.count (distinct : Bool) : Aggregate :=
  ⟨"COUNT", distinct⟩

structure Column where
  expression : Fragment
  aggregate : Option Aggregate
  name : Option String

namespace Column

def plain (expression : Fragment) : Column :=
  ⟨expression, none, none⟩

def text (column : Column) : String :=
  let value := match column.aggregate with
    | some aggregate =>
      aggregate.name ++ "(" ++ (if aggregate.distinct then "DISTINCT " else "") ++
        column.expression.text ++ ")"
    | none => column.expression.text
  match column.name with
  | some name => value ++ " AS " ++ name
  | none => value

end Column

/-! ## Row sources -/

/-- An entry of `FROM`: a table or a query in parentheses. -/
inductive Source (σ : Type) where
  | table (name : String) (row : Option Alias)
  | nested (query : σ) (name : String)

structure Join where
  table : String
  name : String
  condition : String
  indexHint : Option String
  deriving DecidableEq, Repr

def Join.text (join : Join) : String :=
  let hint := match join.indexHint with
    | some index => "FORCE INDEX FOR JOIN (" ++ index ++ ") "
    | none => ""
  "JOIN " ++ join.table ++ " " ++ join.name ++ " " ++ hint ++ "ON " ++ join.condition

/-! ## Filters -/

/-- What a filter tests: the shape of a pattern, a predicate, or nothing that could
ever hold. -/
inductive Leaf where
  | shape (test : Test)
  | predicate (fragment : Fragment)
  | never

def Leaf.text : Leaf → String
  | shape test => test.text
  | predicate fragment => fragment.text
  | never => "FALSE"

/-! ## Queries -/

/-- How many rows are returned and how many are passed over. -/
structure Page where
  limit : Option Nat
  offset : Option Nat
  deriving DecidableEq, Repr

def Page.text (page : Page) : String :=
  let limit := match page.limit with
    | some count => "\nLIMIT " ++ toString count
    | none => ""
  let offset := match page.offset with
    | some count => "\nOFFSET " ++ toString count
    | none => ""
  limit ++ offset

/-- A query.  Each list in `joins` is an alternative with rows of its own, `grouping`
numbers columns, and `aggregated` says that some column aggregates, possibly inside
a larger expression. -/
structure Selection where
  distinct : Bool
  columns : List Column
  sources : List (Source Selection)
  joins : List (List Join)
  condition : Condition Leaf
  grouping : List Nat
  aggregated : Bool
  page : Page

/-- Whether the rows of several branches have to be aggregated once more when they
are put together. -/
def Selection.needsMerging (selection : Selection) : Bool :=
  selection.aggregated || !selection.grouping.isEmpty ||
    selection.columns.any fun column => column.aggregate.isSome

end CypherSql.Sql
