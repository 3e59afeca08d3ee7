import CypherSql.Sql.Selection

/-! # SQL statements

* `Key` — what a branch is grouped by.
* `Branch` — one `SELECT` without disjunction in its filter.
* `Merged` — a column of the query that aggregates the rows of branches once more.
* `Statement` — a single `SELECT`, a union, or a union that is aggregated.
* `Statement.text` — the SQL.
-/

namespace CypherSql.Sql

/-- A member of `GROUP BY`: the name of a column, or an expression. -/
inductive Key where
  | named (name : String)
  | expression (fragment : Fragment)

def Key.text : Key → String
  | named name => name
  | expression fragment => fragment.text

/-- One `SELECT`.  Its filter holds no disjunction, and `keys` is what it is grouped by. -/
structure Branch (σ : Type) where
  distinct : Bool
  columns : List Column
  sources : List (Source σ)
  joins : List Join
  condition : Condition Leaf
  keys : List Key

/-- What becomes of a named column of the branches: a key stays, counts are added up,
and any other aggregate is applied to the results of the branches. -/
inductive Merged where
  | key (name : String)
  | sum (name : String)
  | reapplied (function name : String)
  deriving DecidableEq, Repr

def Merged.text : Merged → String
  | key name => name
  | sum name => "SUM(" ++ name ++ ")"
  | reapplied function name => function ++ "(" ++ name ++ ")"

/-- A complete statement.  `distinct` says whether a union drops repeated rows. -/
inductive Statement where
  | single (branch : Branch Statement) (page : Page)
  | union (distinct : Bool) (branches : List (Branch Statement)) (page : Page)
  | merged (columns : List Merged) (distinct : Bool) (branches : List (Branch Statement))
      (keys : List String) (page : Page)

def Statement.branches : Statement → List (Branch Statement)
  | single branch _ => [branch]
  | union _ branches _ => branches
  | merged _ _ branches _ _ => branches

/-! ## Text -/

/-- A part that is left out when it would be empty. -/
def clauseText (opening : String) (content : String) : String :=
  if content.isEmpty then "" else opening ++ content

def listText (opening : String) (members : List String) (closing : String) : String :=
  if members.isEmpty then "" else opening ++ ", ".intercalate members ++ closing

def unionText (distinct : Bool) : String :=
  if distinct then "\nUNION\n" else "\nUNION ALL\n"

mutual

def Statement.text : Statement → String
  | .single branch page => branchText branch ++ page.text
  | .union distinct branches page =>
    (unionText distinct).intercalate (branchTexts branches) ++ page.text
  | .merged columns distinct branches keys page =>
    -- `DISTINCT` is left to the union.  The page belongs to the outer query.
    "SELECT " ++ ", ".intercalate (columns.map Merged.text) ++ "\nFROM\n(" ++
      (unionText distinct).intercalate (branchTexts branches) ++ ") AS x" ++
      listText "\nGROUP BY " (keys.map fun key => "x." ++ key) "" ++ page.text

def branchTexts : List (Branch Statement) → List String
  | [] => []
  -- Each branch stands in parentheses of its own.
  | branch :: rest => ("(" ++ branchText branch ++ ")") :: branchTexts rest

def branchText : Branch Statement → String
  | ⟨distinct, columns, sources, joins, condition, keys⟩ =>
    "SELECT " ++ (if distinct then "DISTINCT " else "") ++
      ", ".intercalate (columns.map Column.text) ++
      listText "\nFROM (" (sourceTexts sources) ")" ++
      String.join (joins.map fun join => "\n" ++ join.text) ++
      clauseText "\nWHERE " (condition.text Leaf.text) ++
      listText "\nGROUP BY " (keys.map Key.text) ""

def sourceTexts : List (Source Statement) → List String
  | [] => []
  | source :: rest => sourceText source :: sourceTexts rest

def sourceText : Source Statement → String
  | .table name (some row) => name ++ " " ++ row.text
  | .table name none => name
  | .nested query name => "(" ++ query.text ++ ") AS " ++ name

end

end CypherSql.Sql
