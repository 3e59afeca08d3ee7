import CypherSql.Proofs.Sql.Merging

/-! # What the outer query of a merged union works on

The branches of a merged union make one row of each of their groups.  The outer query groups
these rows once more, so that each of its groups has a row for every piece that the parts of the
query hold of one group of all rows.

* `Merging` — the parts of a merged statement.
* `Merging.table_eq` — its table, by the groups of the rows of the union.
* `Merging.groups_perm` — these groups, by the rows that the parts of the query keep.
-/

namespace CypherSql.Sql

variable {R V : Type} [DecidableEq V] {selection : Selection} {statement : Statement}
  {named : List Column} {columns : List Merged}

/-! ## Parts of a merged statement -/

/-- A statement is merged from branches with named columns, and the outer query makes `columns`
of them. -/
structure Merging (selection : Selection) (statement : Statement) (named : List Column)
    (columns : List Merged) : Prop where
  /-- Without keys something has to aggregate. -/
  aggregating : selection.grouping = [] →
    (selection.columns.any fun column => column.aggregate.isSome) = true
  renamed : List.Forall₂ Renamed selection.columns named
  distinct : (named.map Column.name).Nodup
  areColumns : List.Forall₂ (fun column merged => mergedColumn column = .ok merged) named columns
  isMerged : ∃ sources keys outerKeys,
    keysOf named selection.grouping = .ok keys ∧
      (selection.grouping.mapM fun index => do requiredName (← columnAt named index)) =
        .ok outerKeys ∧
      statement = .merged columns selection.distinct
        (unionBranches named sources keys (branchConditions selection.condition)
          (joinAlternatives selection.joins)) outerKeys selection.page

theorem Selection.merging (succeeds : selection.assemble = .ok statement)
    (several : statement.isUnion = true) (needed : selection.needsMerging = true)
    (aggregating : selection.grouping = [] →
      (selection.columns.any fun column => column.aggregate.isSome) = true)
    (names : (selection.columns.filterMap Column.name).Nodup) :
    ∃ named columns, Merging selection statement named columns := by
  obtain ⟨_, assembled⟩ := Selection.assembled succeeds
  cases assembled with
  | single => contradiction
  | union unneeded =>
    rw [needed] at unneeded
    contradiction
  | @merged sources named keys columns outerKeys _ _ areNamed _ areKeys areColumns areOuterKeys =>
    obtain ⟨renamed, distinct⟩ := withNames_ok areNamed names
    exact ⟨named, columns, aggregating, renamed, distinct, mapM_eq_ok.mp areColumns, sources, keys,
      outerKeys, areKeys, areOuterKeys, rfl⟩

/-! ## Rows of the union -/

/-- The rows that the branches of a statement give, before the outer query drops or groups any
of them. -/
def Statement.innerRows (reading : Reading R V) (source : Nat → List R) (statement : Statement) :
    List (List (Cell V)) :=
  unionRows reading (fun number _ => source number) statement.branches

omit [DecidableEq V] in
theorem Selection.keptRows_ne_nil (reading : Reading R V) (source : Nat → List R)
    (selection : Selection) : selection.keptRows reading source ≠ [] := by
  simpa [Selection.keptRows] using selection.parts_ne_nil

/-- The cells that the outer query groups by. -/
def outerKeysOf (V : Type) (selection : Selection) : List (List (Cell V) → Cell V) :=
  selection.grouping.map fun index row => row.getD index (.data none)

namespace Merging

variable (merging : Merging selection statement named columns) (reading : Reading R V)
  (source : Nat → List R)

include merging

theorem aggregates : selection.grouping = [] → columns.any Merged.aggregates = true := by
  rw [any_aggregates_merged merging.areColumns, any_aggregate_renamed merging.renamed]
  exact merging.aggregating

theorem table_eq :
    (statement.table reading fun number _ => source number) =
      (groupRows true (outerKeysOf V selection)
        (dropRepeated selection.distinct (statement.innerRows reading source))).map fun group =>
          columns.map (Merged.cell reading (named.map Column.name) group) := by
  obtain ⟨sources, keys, outerKeys, areKeys, areOuterKeys, rfl⟩ := merging.isMerged
  rw [Statement.table, unionNames_unionBranches selection.parts_ne_nil,
    cellsNamed_eq merging.renamed merging.distinct areOuterKeys,
    groupRows_of_keyless merging.aggregates]
  rfl

theorem innerRows_eq :
    statement.innerRows reading source =
      (selection.keptRows reading source).flatMap fun part =>
        (groupRows true (selection.grouping.map (valueAt reading selection.columns)) part).map
          (rowOf reading selection.columns) := by
  obtain ⟨sources, keys, outerKeys, areKeys, areOuterKeys, rfl⟩ := merging.isMerged
  rw [Statement.innerRows, Statement.branches, unionRows_unionBranches,
    keyValues_eq reading merging.renamed merging.distinct areKeys, rowOf_renamed reading merging.renamed,
    any_aggregate_renamed merging.renamed]
  simp only [groupRows_of_keyless merging.aggregating]

/-! ## Groups -/

/-- The groups of the outer query are made from the pieces of the groups of all rows. -/
theorem groups_perm
    (plain : ∀ index ∈ selection.grouping, ∃ column, selection.columns[index]? = some column ∧
      column.aggregate = none) :
    (groupRows true (outerKeysOf V selection) (statement.innerRows reading source)).Perm
      ((groupedParts (selection.grouping.map (valueAt reading selection.columns))
        (selection.keptRows reading source)).map (List.map (rowOf reading selection.columns))) := by
  rw [merging.innerRows_eq reading source]
  exact groupRows_flatMap_perm (fun _ _ => Cell.data.inj) (by simp)
    (keepsKey_of_plain reading plain) _

theorem wholeTable_eq :
    selection.wholeTable reading source =
      (groupedParts (selection.grouping.map (valueAt reading selection.columns))
        (selection.keptRows reading source)).map fun group =>
          rowOf reading selection.columns group.flatten := by
  rw [Selection.wholeTable, groupRows_of_keyless merging.aggregating, groupRows_flatten,
    List.map_map]
  rfl

end Merging

end CypherSql.Sql
