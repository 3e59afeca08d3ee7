import CypherSql.Sql.Error
import CypherSql.Sql.Statement
import CypherSql.Text.Identifier

/-! # Assembling statements

A query whose condition expands to one clause, with at most one list of joins,
becomes a single `SELECT`.  Any other becomes a union with one branch for every clause
and every list of joins.  A union of aggregated branches stands inside a query that
aggregates their rows once more, for which every column needs a name.

* `withNames` — the names that columns get for that.
* `keysOf` — what a branch is grouped by.
* `Selection.assemble` — the statement of a query.
-/

namespace CypherSql.Sql

open CypherSql.Text (isIdentifier)

/-! ## Names of columns -/

/-- The name a column would have: its expression with underscores for points, and
the aggregate behind it. -/
def baseName (column : Column) : String :=
  let expression := column.expression.text
  let base :=
    -- `COUNT(*)` has no expression that could give a name.
    if expression == "*" then "star"
    else String.ofList (expression.toList.map fun c => if c == '.' then '_' else c)
  match column.aggregate with
  | some aggregate => base ++ "_" ++ aggregate.name
  | none => base

/-- The first of `base`, `base_1`, `base_2`, … that is not taken.  One more candidate
than there are taken names is enough. -/
def freeName (taken : List String) (base : String) : String :=
  let numbered := (List.range taken.length).map fun n => base ++ "_" ++ toString (n + 1)
  ((base :: numbered).find? fun candidate => !taken.contains candidate).getD base

/-- Names the columns that have none, from left to right, keeping clear of the names
that are taken. -/
def nameFrom (taken : List String) : List Column → Except GenerationError (List Column)
  | [] => .ok []
  | column :: rest =>
    match column.name with
    | some _ => do return column :: (← nameFrom taken rest)
    | none =>
      -- What is made up may still be no name, such as that of a sum of columns.
      let base := baseName column
      if isIdentifier base then do
        let name := freeName taken base
        return { column with name := some name } :: (← nameFrom (name :: taken) rest)
      else .error (.missingColumnName column.expression.text)

def withNames (columns : List Column) : Except GenerationError (List Column) :=
  nameFrom (columns.filterMap Column.name) columns

/-! ## Grouping -/

def columnAt (columns : List Column) (index : Nat) : Except GenerationError Column :=
  match columns[index]? with
  | some column => .ok column
  | none => .error (.malformed (.groupingOutOfRange index columns.length))

/-- What a column is grouped by: its name, else its expression.  An aggregate without
a name is no key. -/
def keyOf (column : Column) : Except GenerationError Key :=
  match column.name, column.aggregate with
  | some name, _ => .ok (.named name)
  | none, none => .ok (.expression column.expression)
  | none, some _ => .error (.missingColumnName column.expression.text)

def keysOf (columns : List Column) (grouping : List Nat) :
    Except GenerationError (List Key) :=
  grouping.mapM fun index => do keyOf (← columnAt columns index)

/-! ## Merging branches -/

def requiredName (column : Column) : Except GenerationError String :=
  match column.name with
  | some name => .ok name
  | none => .error (.missingColumnName column.expression.text)

/-- What becomes of a column when branches are merged.  Counts are added up. -/
def mergedColumn (column : Column) : Except GenerationError Merged := do
  let name ← requiredName column
  match column.aggregate with
  | some aggregate =>
    return if aggregate.name == "COUNT" then .sum name else .reapplied aggregate.name name
  | none => return .key name

/-- Branches can be merged when every column is a key or an aggregate as a whole. -/
def requireMergeable (columns : List Column) (grouping : List Nat) :
    Except GenerationError Unit :=
  match columns.zipIdx.find? fun (column, index) =>
      column.aggregate.isNone && !grouping.contains index with
  | some (column, _) => .error (.unmergeableAggregate column.expression.text)
  | none => .ok ()

/-! ## Statements -/

/-- The clauses of a condition.  One that can hold in no way gets a clause that never
does. -/
def branchConditions (condition : Condition Leaf) : List (Condition Leaf) :=
  match condition.clauses with
  | [] => [.leaf .never]
  | clauses => clauses

/-- The alternative lists of joins, at least the empty one. -/
def joinAlternatives : List (List Join) → List (List Join)
  | [] => [[]]
  | alternatives => alternatives

def unionBranches (columns : List Column) (sources : List (Source Statement))
    (keys : List Key) (clauses : List (Condition Leaf)) (alternatives : List (List Join)) :
    List (Branch Statement) :=
  clauses.flatMap fun clause =>
    alternatives.map fun joins => ⟨false, columns, sources, joins, clause.flatten, keys⟩

mutual

def Selection.assemble : Selection → Except GenerationError Statement
  | selection@⟨distinct, columns, sources, joins, condition, grouping, _, page⟩ =>
    if columns.isEmpty then .error (.malformed .noColumns)
    else
      match branchConditions condition, joinAlternatives joins with
      -- One clause and one list of joins: no union, and names only where they were given.
      | [clause], [joins] => do
        let sources ← assembleSources sources
        let keys ← keysOf columns grouping
        return .single ⟨distinct, columns, sources, joins, clause.flatten, keys⟩ page
      | clauses, alternatives =>
        if selection.needsMerging then do
          requireMergeable columns grouping
          -- The outer query knows the columns of the branches by their names only.
          let columns ← withNames columns
          let sources ← assembleSources sources
          let keys ← keysOf columns grouping
          let merged ← columns.mapM mergedColumn
          let outerKeys ← grouping.mapM fun index => do requiredName (← columnAt columns index)
          return .merged merged distinct
            (unionBranches columns sources keys clauses alternatives) outerKeys page
        else do
          let sources ← assembleSources sources
          let keys ← keysOf columns grouping
          return .union distinct (unionBranches columns sources keys clauses alternatives) page

def assembleSources : List (Source Selection) → Except GenerationError (List (Source Statement))
  | [] => .ok []
  | source :: rest => do
    let first ← assembleSource source
    let others ← assembleSources rest
    return first :: others

def assembleSource : Source Selection → Except GenerationError (Source Statement)
  | .table name row => .ok (.table name row)
  | .nested query name => do return .nested (← query.assemble) name

end

end CypherSql.Sql
