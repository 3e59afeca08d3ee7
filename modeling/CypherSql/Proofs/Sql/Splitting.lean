import CypherSql.Proofs.Sql.Assembled
import CypherSql.Proofs.Sql.Tables
import Mathlib.Algebra.Order.BigOperators.Group.List
import Mathlib.Algebra.Order.Group.Nat
import Mathlib.Data.List.Perm.Lattice

/-! # How often a row comes out of a union

A query without aggregates that is split into branches returns a row once for every branch
whose clause holds for it.  So it returns a row as often as there are ways in which the filter
holds, and the branches together return what one `SELECT` with the whole filter would exactly
when the filter never holds in two ways.

* `Selection.unsplit` — the query as one `SELECT`.
* `Selection.table_perm_ways` — how often a row is returned.
* `Selection.table_perm_iff` — when that is what one `SELECT` returns.
-/

namespace CypherSql.Sql

variable {R V : Type} [DecidableEq V]

/-! ## Repeated rows -/

section

variable {α β : Type} {f : α → β}

theorem filter_map_eq_flatMap (test : α → Bool) (rows : List α) :
    (rows.filter test).map f =
      rows.flatMap fun row => List.replicate (if test row then 1 else 0) (f row) := by
  induction rows with
  | nil => rfl
  | cons row rest ih => cases holds : test row <;> simp [holds, ih]

theorem flatMap_filter_perm (tests : List (α → Bool)) (rows : List α) :
    (tests.flatMap fun test => (rows.filter test).map f).Perm
      (rows.flatMap fun row => List.replicate (tests.countP fun test => test row) (f row)) := by
  induction tests with
  | nil => simp
  | cons test rest ih =>
    rw [List.flatMap_cons, filter_map_eq_flatMap]
    refine ((List.Perm.refl _).append ih).trans ((List.flatMap_append_perm _ _ _).trans ?_)
    apply List.Perm.of_eq
    congr 1
    funext row
    rw [List.replicate_append_replicate, List.countP_cons, Nat.add_comm]

theorem eq_of_sum_eq {few many : α → Nat} {rows : List α}
    (le : ∀ row ∈ rows, few row ≤ many row)
    (same : (rows.map many).sum = (rows.map few).sum) : ∀ row ∈ rows, many row = few row := by
  induction rows with
  | nil => exact fun _ isOne => absurd isOne List.not_mem_nil
  | cons row rest ih =>
    rw [List.map_cons, List.map_cons, List.sum_cons, List.sum_cons] at same
    have first := le row List.mem_cons_self
    have others : (rest.map few).sum ≤ (rest.map many).sum :=
      List.sum_le_sum fun other isOne => le other (List.mem_cons_of_mem _ isOne)
    have restSame := ih (fun other isOne => le other (List.mem_cons_of_mem _ isOne)) (by omega)
    intro other isOne
    rcases List.mem_cons.mp isOne with rfl | later
    · omega
    · exact restSame other later

/-- Rows repeated more often are the same rows only when none is. -/
theorem flatMap_replicate_perm_iff {few many : α → Nat} {rows : List α}
    (le : ∀ row ∈ rows, few row ≤ many row) :
    (rows.flatMap fun row => List.replicate (many row) (f row)).Perm
        (rows.flatMap fun row => List.replicate (few row) (f row)) ↔
      ∀ row ∈ rows, many row = few row := by
  constructor
  -- Lengths suffice: rows are repeated at least as often as they should be.
  · intro perm
    have lengths := perm.length_eq
    simp only [List.length_flatMap, List.length_replicate] at lengths
    exact eq_of_sum_eq le lengths
  · intro same
    apply List.Perm.of_eq
    rw [List.flatMap_def, List.flatMap_def, List.map_congr_left]
    intro row isOne
    rw [same row isOne]

end

/-! ## Branches without aggregates -/

variable (reading : Reading R V)

theorem table_plain {σ : Type} {columns : List Column}
    (unaggregated : (columns.any fun column => column.aggregate.isSome) = false)
    (sources : List (Source σ)) (joins : List Join) (condition : Condition Leaf) (rows : List R) :
    Branch.table reading rows ⟨false, columns, sources, joins, condition, []⟩ =
      (rows.filter fun row => condition.holds (reading.truth row)).map fun row =>
        rowOf reading columns [row] := by
  simp only [Branch.table, groupRows, unaggregated, dropRepeated, List.map_nil, List.isEmpty_nil,
    if_true, Bool.false_eq_true, if_false, List.map_map, Function.comp_def]

/-- How many clauses of a filter hold is in how many ways the filter does. -/
theorem countP_holds_branchConditions {truth : Leaf → Bool} (never : truth .never = false)
    (condition : Condition Leaf) :
    (branchConditions condition).countP (Condition.holds truth) = condition.ways truth := by
  have clauses := @Condition.countP_clauses Leaf truth condition
  unfold branchConditions
  split
  -- Where no clause is left, the one that never holds stands in for them.
  · next none =>
    rw [none] at clauses
    simp [never, ← clauses]
  · exact clauses

theorem exists_branchCondition_holds {truth : Leaf → Bool} (never : truth .never = false)
    (condition : Condition Leaf) :
    (∃ clause ∈ branchConditions condition, clause.holds truth = true) ↔
      condition.holds truth = true := by
  rw [← List.countP_pos_iff, countP_holds_branchConditions never, Condition.ways_pos]

omit [DecidableEq V] in
theorem countP_branchConditions {row : R} (never : reading.truth row .never = false)
    (condition : Condition Leaf) :
    ((branchConditions condition).map fun clause row =>
        clause.flatten.holds (reading.truth row)).countP (fun test => test row) =
      condition.ways (reading.truth row) := by
  rw [← countP_holds_branchConditions never, List.countP_map]
  simp only [Function.comp_def, Condition.holds_flatten]

theorem keysOf_nil {columns : List Column} {keys : List Key}
    (areKeys : keysOf columns [] = .ok keys) : keys = [] := by
  have each := mapM_eq_ok.mp areKeys
  cases each
  rfl

/-- Where the numbers of branches do not matter, a union has the rows of each of them. -/
theorem unionRows_eq_flatMap {σ : Type} (source : Branch σ → List R) (branches : List (Branch σ)) :
    unionRows reading (fun _ => source) branches =
      branches.flatMap fun branch => branch.table reading (source branch) := by
  rw [unionRows]
  conv_rhs => rw [← List.zipIdx_map_fst 0 branches, List.flatMap_map]

theorem unionRows_of_sameRows {source : Nat → Branch Statement → List R} {rows : List R}
    {branches : List (Branch Statement)}
    (sameRows : ∀ number, ∀ branch ∈ branches, source number branch = rows) :
    unionRows reading source branches =
      branches.flatMap fun branch => branch.table reading rows := by
  rw [← unionRows_eq_flatMap reading fun _ => rows, unionRows, unionRows, List.flatMap_def,
    List.flatMap_def]
  congr 1
  apply List.map_congr_left
  intro entry isOne
  rw [← sameRows entry.2 entry.1 (List.fst_mem_of_mem_zipIdx isOne)]

/-! ## The whole query as one selection -/

variable {selection : Selection} {statement : Statement}

/-- Nothing is grouped where there is nothing to merge. -/
theorem Selection.plain_of_unmerged (unmerged : selection.needsMerging = false) :
    selection.grouping = [] ∧
      (selection.columns.any fun column => column.aggregate.isSome) = false := by
  simp only [needsMerging, Bool.or_eq_false_iff, Bool.not_eq_false', List.isEmpty_iff] at unmerged
  exact ⟨unmerged.1.2, unmerged.2⟩

/-- The query as one `SELECT` that keeps the filter as it is. -/
def Selection.unsplit (selection : Selection) (sources : List (Source Statement)) : Statement :=
  .single ⟨false, selection.columns, sources, [], selection.condition, []⟩ selection.page

theorem Selection.table_eq_flatMap (succeeds : selection.assemble = .ok statement)
    (unmerged : selection.needsMerging = false) (plain : selection.distinct = false)
    (unjoined : selection.joins = [])
    {source : Nat → Branch Statement → List R} {rows : List R}
    (sameRows : ∀ number, ∀ branch ∈ statement.branches, source number branch = rows) :
    statement.table reading source =
      ((branchConditions selection.condition).map fun clause row =>
        clause.flatten.holds (reading.truth row)).flatMap fun test =>
          (rows.filter test).map fun row => rowOf reading selection.columns [row] := by
  obtain ⟨keyless, unaggregated⟩ := Selection.plain_of_unmerged unmerged
  obtain ⟨_, assembled⟩ := Selection.assembled succeeds
  cases assembled with
  | @single sources clause joins keys _ isClause _ areKeys =>
    rw [keyless] at areKeys
    obtain rfl := keysOf_nil areKeys
    rw [Statement.table, sameRows 0 _ (by simp [Statement.branches]), plain,
      table_plain reading unaggregated, isClause]
    simp
  | merged needed =>
    rw [unmerged] at needed
    contradiction
  | @union sources keys _ _ areKeys =>
    rw [keyless] at areKeys
    obtain rfl := keysOf_nil areKeys
    dsimp only [Statement.branches] at sameRows
    rw [Statement.table, unionRows_of_sameRows reading sameRows, plain, unjoined]
    simp only [unionBranches, joinAlternatives, List.map_cons, List.map_nil, List.flatMap_map,
      dropRepeated, ← List.map_eq_flatMap, table_plain reading unaggregated]
    simp

/-- A row is returned as often as there are ways in which the filter holds for it. -/
theorem Selection.table_perm_ways (succeeds : selection.assemble = .ok statement)
    (unmerged : selection.needsMerging = false) (plain : selection.distinct = false)
    (unjoined : selection.joins = []) (never : ∀ row, reading.truth row .never = false)
    {source : Nat → Branch Statement → List R} {rows : List R}
    (sameRows : ∀ number, ∀ branch ∈ statement.branches, source number branch = rows) :
    (statement.table reading source).Perm
      (rows.flatMap fun row => List.replicate (selection.condition.ways (reading.truth row))
        (rowOf reading selection.columns [row])) := by
  rw [Selection.table_eq_flatMap reading succeeds unmerged plain unjoined sameRows]
  have perm := flatMap_filter_perm (f := fun row => rowOf reading selection.columns [row])
    ((branchConditions selection.condition).map fun clause row =>
        clause.flatten.holds (reading.truth row)) rows
  simp only [countP_branchConditions reading (never _)] at perm
  exact perm

theorem Selection.table_unsplit (unmerged : selection.needsMerging = false)
    {source : Nat → Branch Statement → List R} {rows : List R} {sources : List (Source Statement)}
    (sameRows : ∀ branch ∈ (selection.unsplit sources).branches, source 0 branch = rows) :
    (selection.unsplit sources).table reading source =
      (rows.filter fun row => selection.condition.holds (reading.truth row)).map fun row =>
        rowOf reading selection.columns [row] := by
  have unaggregated := (Selection.plain_of_unmerged unmerged).2
  rw [Selection.unsplit, Statement.table, table_plain reading unaggregated, sameRows]
  simp [unsplit, Statement.branches]

/-- The branches return what one `SELECT` does exactly when the filter holds in no more than
one way for any row. -/
theorem Selection.table_perm_iff (succeeds : selection.assemble = .ok statement)
    (unmerged : selection.needsMerging = false) (plain : selection.distinct = false)
    (unjoined : selection.joins = []) (never : ∀ row, reading.truth row .never = false)
    {source : Nat → Branch Statement → List R} {rows : List R}
    (sameRows : ∀ number, ∀ branch ∈ statement.branches, source number branch = rows) :
    (statement.table reading source).Perm
        ((rows.filter fun row => selection.condition.holds (reading.truth row)).map fun row =>
          rowOf reading selection.columns [row]) ↔
      ∀ row ∈ rows, selection.condition.ways (reading.truth row) ≤ 1 := by
  have split := selection.table_perm_ways reading succeeds unmerged plain unjoined never sameRows
  have once : ∀ row ∈ rows, (if selection.condition.holds (reading.truth row) then 1 else 0) ≤
      selection.condition.ways (reading.truth row) := by
    intro row _
    split
    · next holds => exact (Condition.ways_pos _).mpr holds
    · exact Nat.zero_le _
  rw [filter_map_eq_flatMap]
  refine Iff.trans ⟨split.symm.trans, split.trans⟩ ((flatMap_replicate_perm_iff once).trans ?_)
  apply forall₂_congr
  intro row _
  have positive := @Condition.ways_pos Leaf (reading.truth row) selection.condition
  by_cases holds : selection.condition.holds (reading.truth row) = true
  · have := positive.mpr holds
    rw [if_pos holds]
    omega
  · have := mt positive.mp holds
    rw [if_neg holds]
    omega

end CypherSql.Sql
