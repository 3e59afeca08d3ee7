import CypherSql.Proofs.Sql.Filters
import CypherSql.Proofs.Sql.Merging

/-! # Queries that return no row twice

A query without aggregates that returns distinct rows, and not just a page of them, may be split
into any number of branches.  Together they return the rows for which the filter holds as it was
before it was expanded, each once.

* `Database.joined` — the rows that sources and a list of joins give.
* `Statement.resultAsWritten` — the table of a statement that is read from its text.
* `Selection.distinct_rows` — the rows of that table.
-/

namespace CypherSql.Sql

open CypherSql.Condition (conjunction flatten_of_mem_clauses)

/-! ## Conditions of branches -/

section

variable {condition clause : Condition Leaf}

theorem flatten_of_mem_branchConditions (isClause : clause ∈ branchConditions condition) :
    clause.flatten = conjunction clause.leaves := by
  unfold branchConditions at isClause
  split at isClause
  · obtain rfl := List.mem_singleton.mp isClause
    rfl
  · exact flatten_of_mem_clauses condition clause isClause

theorem standsAmong_of_mem_branchConditions
    (stand : ∀ leaf ∈ condition.leaves, leaf.StandsAmong)
    (isClause : clause ∈ branchConditions condition) :
    ∀ leaf ∈ clause.leaves, leaf.StandsAmong := by
  unfold branchConditions at isClause
  split at isClause
  · obtain rfl := List.mem_singleton.mp isClause
    exact List.forall_mem_singleton.mpr Leaf.standsAmong_never
  · intro leaf isLeaf
    exact stand leaf (Condition.leaves_subset_of_mem_clauses condition clause isClause isLeaf)

end

/-! ## Tables of statements as they are written -/

variable {V : Type} [DecidableEq V]

theorem mem_dropRepeated {κ : Type} [DecidableEq κ] {distinct : Bool} {rows : List κ} {row : κ} :
    row ∈ dropRepeated distinct rows ↔ row ∈ rows := by
  unfold dropRepeated
  split
  · exact List.mem_dedup
  · rfl

namespace Database

variable (db : Database V)

/-- The rows that sources give with the joins of a list. -/
def joined (sources : List (Source Statement)) (joins : List Join) : List (Alias → Record V) :=
  joins.foldl (fun found join => found.flatMap (db.extend join)) (db.assignments sources)

omit [DecidableEq V] in
theorem rows_asWritten (branch : Branch Statement) :
    db.rows branch.asWritten = db.joined branch.sources branch.joins := rfl

end Database

/-- The table of a statement over a database that goes by what is written. -/
noncomputable def Statement.resultAsWritten (db : Database V) (statement : Statement) :
    List (List (Cell V)) :=
  statement.asWritten.table db.grammatical fun _ branch => db.rows branch

variable {selection : Selection} {sources : List (Source Statement)}

/-- A branch returns the rows for which its clause holds. -/
theorem Branch.mem_table_asWritten {distinct : Bool} {columns : List Column} {joins : List Join}
    {clause : Condition Leaf}
    (unaggregated : (columns.any fun column => column.aggregate.isSome) = false)
    (isClause : clause ∈ branchConditions selection.condition)
    (stand : ∀ leaf ∈ selection.condition.leaves, leaf.StandsAmong) (db : Database V)
    (rows : List (Alias → Record V)) {row : List (Cell V)} :
    row ∈ (Branch.mk distinct columns sources joins clause.flatten []).asWritten.table
        db.grammatical rows ↔
      ∃ found ∈ rows, clause.holds (db.grammatical.truth found) = true ∧
        row = rowOf db.grammatical columns [found] := by
  have whole : ∀ written, Branch.table db.grammatical rows
      (Branch.mk distinct columns sources joins written []) = dropRepeated distinct
        (Branch.table db.grammatical rows ⟨false, columns, sources, joins, written, []⟩) :=
    fun _ => rfl
  have isConjunction :
      (Branch.mk distinct columns sources joins clause.flatten []).condition =
        conjunction clause.leaves :=
    flatten_of_mem_branchConditions isClause
  have reads := Branch.holds_asWritten isConjunction
    (standsAmong_of_mem_branchConditions stand isClause) db
  rw [asWritten, whole, mem_dropRepeated, table_plain db.grammatical unaggregated, List.mem_map]
  constructor
  · rintro ⟨found, kept, rfl⟩
    obtain ⟨isRow, holds⟩ := List.mem_filter.mp kept
    have flat := (reads found).symm.trans holds
    exact ⟨found, isRow, (Condition.holds_flatten clause).symm.trans flat, rfl⟩
  · rintro ⟨found, isRow, holds, rfl⟩
    have flat := (Condition.holds_flatten clause).trans holds
    exact ⟨found, List.mem_filter.mpr ⟨isRow, (reads found).trans flat⟩, rfl⟩

/-! ## Queries -/

theorem Selection.exists_assemble (present : selection.columns ≠ [])
    (areSources : assembleSources selection.sources = .ok sources)
    (unmerged : selection.needsMerging = false) :
    ∃ statement, selection.assemble = .ok statement := by
  have keyless := (Selection.plain_of_unmerged unmerged).1
  obtain ⟨distinct, columns, selectionSources, joins, condition, grouping, aggregated, page⟩ :=
    selection
  dsimp only at keyless areSources present
  subst keyless
  have noKeys : keysOf columns [] = .ok [] := rfl
  rw [Selection.assemble, if_neg (by simpa using present)]
  split
  · exact ⟨_, by rw [areSources, ok_bind, noKeys, ok_bind]; rfl⟩
  · rw [if_neg (by simp [unmerged])]
    exact ⟨_, by rw [areSources, ok_bind, noKeys, ok_bind]; rfl⟩

theorem Selection.nodup_resultAsWritten {statement : Statement}
    (assembled : Assembled selection statement)
    (distinct : selection.distinct = true) (unmerged : selection.needsMerging = false)
    (db : Database V) : (statement.resultAsWritten db).Nodup := by
  cases assembled with
  | single | union =>
    rw [Statement.resultAsWritten, Statement.asWritten, Statement.table, distinct]
    exact List.nodup_dedup _
  | merged needed =>
    rw [unmerged] at needed
    contradiction

theorem Selection.mem_resultAsWritten {statement : Statement}
    (assembled : Assembled selection statement)
    (areSources : assembleSources selection.sources = .ok sources)
    (unmerged : selection.needsMerging = false)
    (stand : ∀ leaf ∈ selection.condition.leaves, leaf.StandsAmong) (db : Database V)
    (row : List (Cell V)) : row ∈ statement.resultAsWritten db ↔
      ∃ joins ∈ joinAlternatives selection.joins, ∃ rows ∈ db.joined sources joins,
        (∃ clause ∈ branchConditions selection.condition,
          clause.holds (db.grammatical.truth rows) = true) ∧
            row = rowOf db.grammatical selection.columns [rows] := by
  obtain ⟨keyless, unaggregated⟩ := Selection.plain_of_unmerged unmerged
  cases assembled with
  | @single found clause joins keys areFound isClause areJoins areKeys =>
    obtain rfl := Except.ok.inj (areFound.symm.trans areSources)
    rw [keyless] at areKeys
    obtain rfl := keysOf_nil areKeys
    rw [Statement.resultAsWritten, Statement.asWritten, Statement.table,
      Branch.mem_table_asWritten unaggregated (by simp [isClause]) stand]
    simp [isClause, areJoins, Database.rows_asWritten]
  | merged needed =>
    rw [unmerged] at needed
    contradiction
  | @union found keys _ areFound areKeys =>
    obtain rfl := Except.ok.inj (areFound.symm.trans areSources)
    rw [keyless] at areKeys
    obtain rfl := keysOf_nil areKeys
    rw [Statement.resultAsWritten, Statement.asWritten, Statement.table, mem_dropRepeated,
      unionRows_eq_flatMap, List.flatMap_map, List.mem_flatMap]
    constructor
    · rintro ⟨branch, isBranch, isRow⟩
      obtain ⟨clause, isClause, isBranch⟩ := List.mem_flatMap.mp isBranch
      obtain ⟨joins, isAlternative, rfl⟩ := List.mem_map.mp isBranch
      obtain ⟨rows, isFound, holds, rfl⟩ :=
        (Branch.mem_table_asWritten unaggregated isClause stand db _).mp isRow
      exact ⟨joins, isAlternative, rows, isFound, ⟨clause, isClause, holds⟩, rfl⟩
    · rintro ⟨joins, isAlternative, rows, isFound, ⟨clause, isClause, holds⟩, rfl⟩
      refine ⟨_, List.mem_flatMap_of_mem isClause (List.mem_map_of_mem isAlternative), ?_⟩
      exact (Branch.mem_table_asWritten unaggregated isClause stand db _).mpr
        ⟨rows, isFound, holds, rfl⟩

/-- A query without aggregates that returns distinct rows returns those for which its filter holds
under some list of joins.  What a branch tests is read from its text. -/
theorem Selection.distinct_rows (present : selection.columns ≠ [])
    (areSources : assembleSources selection.sources = .ok sources)
    (distinct : selection.distinct = true) (unmerged : selection.needsMerging = false)
    (unpaged : selection.page = ⟨none, none⟩)
    (stand : ∀ leaf ∈ selection.condition.leaves, leaf.StandsAmong) (db : Database V) :
    ∃ statement, selection.assemble = .ok statement ∧
      statement.asWritten.text = statement.text ∧ statement.page = ⟨none, none⟩ ∧
      (statement.resultAsWritten db).Nodup ∧
      ∀ row, row ∈ statement.resultAsWritten db ↔
        ∃ joins ∈ joinAlternatives selection.joins, ∃ rows ∈ db.joined sources joins,
          selection.condition.holds (db.grammatical.truth rows) = true ∧
            row = rowOf db.grammatical selection.columns [rows] := by
  obtain ⟨statement, succeeds⟩ := Selection.exists_assemble present areSources unmerged
  have assembled := (Selection.assembled succeeds).2
  refine ⟨statement, succeeds, statement.text_asWritten,
    (Selection.page_ok succeeds).trans unpaged,
    Selection.nodup_resultAsWritten assembled distinct unmerged db, fun row => ?_⟩
  rw [Selection.mem_resultAsWritten assembled areSources unmerged stand]
  simp only [exists_branchCondition_holds (db.truth_never _) selection.condition]

/-! A query with two lists of joins, whose filter has a part that nothing is written for and one
that never holds. -/

def assetsAndTags : Selection where
  distinct := true
  columns := [.plain [.field (.named "a0") ["id"]]]
  sources := [.table "assets" (some (.named "a0"))]
  joins := [[⟨"tags", "t", "t.id = a0.id", none⟩], []]
  condition := .all
    [.any [.leaf (.shape (.hasType (.named "a0") "ip")), .all []],
      .any
        [.leaf (.predicate
            [.field (.named "a0") ["value"], .compare .less, .field (.named "t") ["value"]]),
          .all [.leaf (.predicate (.given "a0.id IN (1, 2)")), .any []]]]
  grouping := []
  aggregated := false
  page := ⟨none, none⟩

def numberedAssets : Database Nat where
  table _ := [fun _ => some 1, fun _ => some 2]
  nested _ := []
  extend join rows := [Function.update rows (.named join.name) fun _ => some 3]
  constant := String.length
  predicate _ _ := true
  value rows fragment := rows (.named "a0") fragment.text
  otherAggregate _ _ _ := .data none

theorem standsAmong_assetsAndTags :
    ∀ leaf ∈ assetsAndTags.condition.leaves, leaf.StandsAmong := by
  have smaller : (Leaf.predicate [.field (.named "a0") ["value"], .compare .less,
      .field (.named "t") ["value"]]).StandsAmong :=
    ⟨by decide, .binary (.compare .less) (.operand (.field (.named "a0") ["value"]) rfl)
      (.operand (.field (.named "t") ["value"]) rfl), rfl, rfl⟩
  have given : (Leaf.predicate (.given "a0.id IN (1, 2)")).StandsAmong :=
    ⟨by decide, .operand (.given "a0.id IN (1, 2)") rfl, rfl, rfl⟩
  simpa [assetsAndTags] using ⟨Leaf.standsAmong_shape _, smaller, given⟩

theorem Selection.distinct_rows_assetsAndTags :
    ∃ statement, assetsAndTags.assemble = .ok statement ∧ statement.isUnion = true ∧
      statement.asWritten.text = statement.text ∧ statement.page = ⟨none, none⟩ ∧
      (statement.resultAsWritten numberedAssets).Nodup ∧
      ∀ row, row ∈ statement.resultAsWritten numberedAssets ↔
        ∃ joins ∈ joinAlternatives assetsAndTags.joins,
          ∃ rows ∈ numberedAssets.joined [.table "assets" (some (.named "a0"))] joins,
            assetsAndTags.condition.holds (numberedAssets.grammatical.truth rows) = true ∧
              row = rowOf numberedAssets.grammatical assetsAndTags.columns [rows] := by
  have present : assetsAndTags.columns ≠ [] := by decide
  obtain ⟨statement, succeeds, rest⟩ := Selection.distinct_rows present rfl rfl rfl rfl
    standsAmong_assetsAndTags numberedAssets
  have several : (assetsAndTags.assemble.toOption.any Statement.isUnion) = true := by
    decide +kernel
  rw [succeeds] at several
  exact ⟨statement, succeeds, several, rest⟩

end CypherSql.Sql
