import CypherSql.Proofs.Sql.Rows
import CypherSql.Proofs.Sql.Splitting

/-! # Databases

A database holds the records of its tables and evaluates expressions.  What `FROM` and the joins
of a branch give are assignments, of a record to each row source.

* `Database` — tables, and what expressions mean.
* `Database.assignments` — every choice of one record for each row source.
* `Statement.result` — the table of a statement over a database.
* `Selection.result_perm_ways`, `Selection.result_perm_unsplit_iff` — how often an assignment is
  returned.
-/

namespace CypherSql.Sql

/-- The records of tables and of nested queries, the ways in which a join extends an
assignment, and the meaning of constants, predicates and expressions. -/
structure Database (V : Type) where
  table : String → List (Record V)
  nested : Statement → List (Record V)
  extend : Join → (Alias → Record V) → List (Alias → Record V)
  constant : String → V
  predicate : (Alias → Record V) → Fragment → Bool
  value : (Alias → Record V) → Fragment → Option V
  otherAggregate : String → Bool → List (Cell V) → Cell V

def Source.row {σ : Type} : Source σ → Alias
  | table _ (some row) => row
  | table name none => .named name
  | nested _ name => .named name

namespace Database

variable {V : Type} [DecidableEq V] (db : Database V)

def reading : Reading (Alias → Record V) V where
  truth rows := Leaf.holds (Test.holds db.constant rows) (db.predicate rows)
  value := db.value
  otherAggregate := db.otherAggregate

def records : Source Statement → List (Record V)
  | .table name _ => db.table name
  | .nested query _ => db.nested query

/-- Every choice of one record for each source. -/
def assignments : List (Source Statement) → List (Alias → Record V)
  | [] => [fun _ _ => none]
  | source :: rest =>
    (db.records source).flatMap fun record =>
      (assignments rest).map fun rows => Function.update rows source.row record

/-- The assignments that the sources and joins of a branch give. -/
def rows (branch : Branch Statement) : List (Alias → Record V) :=
  branch.joins.foldl (fun found join => found.flatMap (db.extend join))
    (db.assignments branch.sources)

end Database

/-- The table of a statement over a database. -/
def Statement.result {V : Type} [DecidableEq V] (db : Database V) (statement : Statement) :
    List (List (Cell V)) :=
  statement.table db.reading fun _ branch => db.rows branch

/-! ## Queries without joins and aggregates -/

section

variable {V : Type} [DecidableEq V] {selection : Selection} {statement : Statement}
  {sources : List (Source Statement)}

omit [DecidableEq V] in
/-- Without joins every branch has the assignments that the sources give. -/
theorem Selection.rows_eq_assignments (succeeds : selection.assemble = .ok statement)
    (areSources : assembleSources selection.sources = .ok sources)
    (unjoined : selection.joins = []) (db : Database V) :
    ∀ branch ∈ statement.branches, db.rows branch = db.assignments sources := by
  intro branch isOne
  obtain ⟨same, sameSources, branches⟩ := Selection.branches_ok succeeds
  obtain rfl := Except.ok.inj (areSources.symm.trans sameSources)
  obtain ⟨isSources, isAlternative⟩ := branches branch isOne
  have noJoins : branch.joins = [] := by simpa [unjoined, joinAlternatives] using isAlternative
  rw [Database.rows, isSources, noJoins, List.foldl_nil]

/-- An assignment is returned as often as there are ways in which the filter holds for it. -/
theorem Selection.result_perm_ways (succeeds : selection.assemble = .ok statement)
    (areSources : assembleSources selection.sources = .ok sources)
    (unmerged : selection.needsMerging = false) (plain : selection.distinct = false)
    (unjoined : selection.joins = []) (db : Database V) :
    (statement.result db).Perm ((db.assignments sources).flatMap fun rows =>
      List.replicate (selection.condition.ways (db.reading.truth rows))
        (rowOf db.reading selection.columns [rows])) :=
  Selection.table_perm_ways db.reading succeeds unmerged plain unjoined (fun _ => rfl) fun _ =>
    Selection.rows_eq_assignments succeeds areSources unjoined db

/-- The branches return what one `SELECT` with the whole filter does exactly when the filter
holds in no more than one way for any assignment. -/
theorem Selection.result_perm_unsplit_iff (succeeds : selection.assemble = .ok statement)
    (areSources : assembleSources selection.sources = .ok sources)
    (unmerged : selection.needsMerging = false) (plain : selection.distinct = false)
    (unjoined : selection.joins = []) (db : Database V) :
    (statement.result db).Perm ((selection.unsplit sources).result db) ↔
      ∀ rows ∈ db.assignments sources, selection.condition.ways (db.reading.truth rows) ≤ 1 := by
  have whole : (selection.unsplit sources).result db =
      ((db.assignments sources).filter fun rows =>
        selection.condition.holds (db.reading.truth rows)).map fun rows =>
          rowOf db.reading selection.columns [rows] := by
    apply Selection.table_unsplit db.reading unmerged
    intro branch isOne
    obtain rfl := List.mem_singleton.mp isOne
    rfl
  rw [whole]
  exact Selection.table_perm_iff db.reading succeeds unmerged plain unjoined (fun _ => rfl) fun _ =>
    Selection.rows_eq_assignments succeeds areSources unjoined db

end

end CypherSql.Sql
