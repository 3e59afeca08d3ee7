import CypherSql.Proofs.Sql.Dropping
import Mathlib.Data.Finset.Card
import Mathlib.Data.Finset.Lattice.Lemmas

/-! # Counts of different values over several branches

Each branch of a union counts the different values that it has itself, and the outer query adds
these counts up.  A value that two branches have is counted twice.

* `length_dedup_flatten_eq_iff` — when the different values of lists add up.
* `Apart` — two parts share no value where their keys agree.
* `Selection.distinct_counts_perm_iff` — when a union counts every value once.
-/

namespace CypherSql.Sql

/-! ## Different members of several lists -/

section

variable {α : Type} [DecidableEq α]

omit [DecidableEq α] in
theorem disjoint_flatten {part : List α} {parts : List (List α)} :
    part.Disjoint parts.flatten ↔ ∀ other ∈ parts, part.Disjoint other := by
  simp only [List.Disjoint, List.mem_flatten]
  constructor
  · exact fun apart other isOther x inPart inOther => apart inPart ⟨other, isOther, inOther⟩
  · rintro apart x inPart ⟨other, isOther, inOther⟩
    exact apart other isOther inPart inOther

theorem length_dedup_append_eq_iff (left right : List α) :
    (left ++ right).dedup.length = left.dedup.length + right.dedup.length ↔
      left.Disjoint right := by
  rw [← List.card_toFinset, ← List.card_toFinset, ← List.card_toFinset, List.toFinset_append,
    Finset.card_union_eq_card_add_card, List.disjoint_toFinset_iff_disjoint]

theorem length_dedup_append_le (left right : List α) :
    (left ++ right).dedup.length ≤ left.dedup.length + right.dedup.length := by
  rw [← List.card_toFinset, ← List.card_toFinset, ← List.card_toFinset, List.toFinset_append]
  exact Finset.card_union_le _ _

theorem length_dedup_flatten_le (parts : List (List α)) :
    parts.flatten.dedup.length ≤ (parts.map fun part => part.dedup.length).sum := by
  induction parts with
  | nil => simp
  | cons part parts ih =>
    have first := length_dedup_append_le part parts.flatten
    rw [List.flatten_cons, List.map_cons, List.sum_cons]
    omega

/-- The numbers of different members add up exactly when no two lists share a member. -/
theorem length_dedup_flatten_eq_iff (parts : List (List α)) :
    parts.flatten.dedup.length = (parts.map fun part => part.dedup.length).sum ↔
      parts.Pairwise List.Disjoint := by
  induction parts with
  | nil => simp
  | cons part parts ih =>
    have first := length_dedup_append_le part parts.flatten
    have others := length_dedup_flatten_le parts
    rw [List.flatten_cons, List.map_cons, List.sum_cons, List.pairwise_cons, ← ih,
      ← disjoint_flatten, ← length_dedup_append_eq_iff]
    omega

end

/-! ## Groups whose pieces share no value -/

section

variable {α κ ν : Type} [DecidableEq κ]

/-- Two parts have no value in common in rows whose keys agree. -/
def Apart (keys : List (α → κ)) (value : α → Option ν) (left right : List α) : Prop :=
  ∀ row ∈ left, ∀ other ∈ right, (∀ key ∈ keys, key row = key other) →
    value row = value other → value row = none

omit [DecidableEq κ] in
theorem disjoint_filterMap {value : α → Option ν} {left right : List α} :
    (left.filterMap value).Disjoint (right.filterMap value) ↔
      ∀ row ∈ left, ∀ other ∈ right, value row = value other → value row = none := by
  simp only [List.Disjoint, List.mem_filterMap]
  constructor
  · intro apart row isOne other isOther same
    cases isValue : value row with
    | none => rfl
    | some found =>
      exact absurd ⟨other, isOther, same ▸ isValue⟩ (apart ⟨row, isOne, isValue⟩)
  · rintro none found ⟨row, isOne, isValue⟩ ⟨other, isOther, alsoValue⟩
    have absent := none row isOne other isOther (isValue.trans alsoValue.symm)
    rw [isValue] at absent
    contradiction

theorem pairwise_pieces {key : α → κ} {value : α → Option ν} {parts : List (List α)} {found : κ} :
    ((pieces key parts found).map (List.filterMap value)).Pairwise List.Disjoint ↔
      parts.Pairwise fun left right => ∀ row ∈ left, key row = found → ∀ other ∈ right,
        key other = found → value row = value other → value row = none := by
  rw [pieces, List.pairwise_map, List.pairwise_filter, List.pairwise_map]
  apply List.Pairwise.iff
  intro left right
  simp only [disjoint_filterMap, List.mem_filter, decide_eq_true_eq, and_imp, Bool.not_eq_true',
    List.isEmpty_eq_false_iff_exists_mem]
  constructor
  · intro apart row isOne isKey other isOther alsoKey
    exact apart ⟨row, isOne, isKey⟩ ⟨other, isOther, alsoKey⟩ row isOne isKey other isOther alsoKey
  · intro apart _ _
    exact apart

/-- In no group do two pieces share a value exactly when no two parts do where keys agree. -/
theorem pairwise_groupedParts {keys : List (α → κ)} {value : α → Option ν} {parts : List (List α)} :
    (∀ group ∈ groupedParts keys parts,
        (group.map (List.filterMap value)).Pairwise List.Disjoint) ↔
      parts.Pairwise (Apart keys value) := by
  by_cases keyless : keys = []
  · subst keyless
    simp only [groupedParts, List.isEmpty_nil, if_true, List.forall_mem_singleton,
      List.pairwise_map, disjoint_filterMap]
    apply List.Pairwise.iff
    simp [Apart]
  · simp only [groupedParts, List.isEmpty_iff, keyless, if_false, List.forall_mem_map,
      List.mem_dedup, pairwise_pieces]
    simp only [List.pairwise_iff_forall_sublist]
    constructor
    · intro apart left right inParts row isOne other isOther agree same
      have isPart : left ∈ parts := inParts.subset List.mem_cons_self
      have sameKey : keys.map (fun key => key other) = keys.map fun key => key row :=
        List.map_congr_left fun key isKey => (agree key isKey).symm
      exact apart row (List.mem_flatten_of_mem isPart isOne) inParts row isOne rfl other isOther
        sameKey same
    · intro apart found _ left right inParts row isOne isKey other isOther alsoKey same
      refine apart inParts row isOne other isOther ?_ same
      exact List.map_inj_left.mp (isKey.trans alsoKey.symm)

end

/-! ## Columns of different values -/

variable {R V : Type} [DecidableEq V]

/-- The cells of a row in some places. -/
def cellsAt (places : List Nat) (row : List (Cell V)) : List (Cell V) :=
  places.map fun index => row.getD index (.data none)

omit [DecidableEq V] in
/-- Rows that differ in a number at most are the same rows when these numbers are. -/
theorem numbered_perm_iff {γ : Type} {few many : γ → Nat} {rest : γ → List (Cell V)}
    {groups : List γ} (le : ∀ group ∈ groups, few group ≤ many group) :
    (groups.map fun group => Cell.number (many group) :: rest group).Perm
        (groups.map fun group => Cell.number (few group) :: rest group) ↔
      ∀ group ∈ groups, few group = many group := by
  constructor
  · intro perm group isGroup
    have totals := (perm.map (numberAt 0)).sum_eq
    rw [List.map_map, List.map_map] at totals
    exact (eq_of_sum_eq le totals group isGroup).symm
  · intro same
    apply List.Perm.of_eq
    apply List.map_congr_left
    intro group isGroup
    rw [same group isGroup]

section

variable (reading : Reading R V) {expression : Fragment} (unstarred : expression.text ≠ "*")

include unstarred

theorem Reading.count_distinct (rows : List R) :
    reading.count rows true expression =
      (rows.filterMap fun row => reading.value row expression).dedup.length := by
  simp [count, unstarred, dropRepeated]

theorem Reading.count_distinct_flatten (group : List (List R)) :
    reading.count group.flatten true expression =
      (group.map (List.filterMap fun row => reading.value row expression)).flatten.dedup.length := by
  rw [reading.count_distinct unstarred, List.filterMap_flatten]

theorem Reading.sum_count_distinct (group : List (List R)) :
    (group.map fun piece => reading.count piece true expression).sum =
      ((group.map (List.filterMap fun row => reading.value row expression)).map
        fun values => values.dedup.length).sum := by
  simp only [reading.count_distinct unstarred, List.map_map, Function.comp_def]

end

namespace Merging

variable {selection : Selection} {statement : Statement} {named : List Column}
  {columns : List Merged} (merging : Merging selection statement named columns)
  (reading : Reading R V) (source : Nat → List R)

include merging

omit [DecidableEq V] in
/-- The statement is assembled from keys that are there. -/
theorem keys_plain
    (plain : ∀ index ∈ selection.grouping, ∀ column, selection.columns[index]? = some column →
      column.aggregate = none) :
    ∀ index ∈ selection.grouping, ∃ column, selection.columns[index]? = some column ∧
      column.aggregate = none := by
  intro index isKey
  obtain ⟨_, keys, _, areKeys, -⟩ := merging.isMerged
  obtain ⟨place, there⟩ := List.mem_iff_getElem?.mp isKey
  obtain ⟨key, -, isKeyOf⟩ := forall₂_at (mapM_eq_ok.mp areKeys) there
  obtain ⟨column, isColumn, -⟩ := bind_eq_ok.mp isKeyOf
  obtain ⟨original, isOriginal, -⟩ := renamed_at merging.renamed (columnAt_eq_ok.mp isColumn)
  exact ⟨original, isOriginal, plain index isKey original isOriginal⟩

/-- The sum of a count over the pieces of a group stands in its place, behind the keys of the
group. -/
theorem cellsAt_merged
    (plain : ∀ index ∈ selection.grouping, ∃ column, selection.columns[index]? = some column ∧
      column.aggregate = none)
    {index : Nat} {column : Column} (there : selection.columns[index]? = some column)
    {unique : Bool} (isCount : column.aggregate = some (.count unique)) {group : List (List R)}
    (pieced : Pieced (selection.grouping.map (valueAt reading selection.columns)) group) :
    cellsAt (index :: selection.grouping) (columns.map (Merged.cell reading
        (named.map Column.name) (group.map (rowOf reading selection.columns)))) =
      .number (group.map fun piece => reading.count piece unique column.expression).sum ::
        cellsAt selection.grouping (rowOf reading selection.columns group.flatten) := by
  obtain ⟨renamed, isRenamed, same⟩ := forall₂_at merging.renamed there
  obtain ⟨merged, isOne, isMerged⟩ := forall₂_at merging.areColumns isRenamed
  have count := mergedCount_eq reading merging.renamed merging.distinct pieced.present isRenamed
    (same.aggregate.trans isCount) isMerged
  rw [cellsAt, List.map_cons, ← same.expression]
  congr 1
  · simpa [isOne] using count
  · apply List.map_congr_left
    intro key isKey
    obtain ⟨original, isOriginal, isPlain⟩ := plain key isKey
    obtain ⟨other, isOther, also⟩ := forall₂_at merging.renamed isOriginal
    obtain ⟨mergedKey, isMergedKey, becomes⟩ := forall₂_at merging.areColumns isOther
    have value := mergedKey_eq reading merging.renamed merging.distinct pieced isOther isKey
      (also.aggregate.trans isPlain) becomes
    have cell : (rowOf reading selection.columns group.flatten).getD key (.data none) =
        reading.cell group.flatten other := by
      rw [← rowOf_renamed reading merging.renamed]
      simp [rowOf, isOther]
    rw [cell, ← value]
    simp [isMergedKey]

/-- The counts in the table are sums over the pieces of the groups. -/
theorem table_cells_perm (undropped : selection.distinct = false)
    (plain : ∀ index ∈ selection.grouping, ∃ column, selection.columns[index]? = some column ∧
      column.aggregate = none)
    {index : Nat} {column : Column} (there : selection.columns[index]? = some column)
    {unique : Bool} (isCount : column.aggregate = some (.count unique)) :
    ((statement.table reading fun number _ => source number).map
        (cellsAt (index :: selection.grouping))).Perm
      ((groupedParts (selection.grouping.map (valueAt reading selection.columns))
        (selection.keptRows reading source)).map fun group =>
          .number (group.map fun piece => reading.count piece unique column.expression).sum ::
            cellsAt selection.grouping (rowOf reading selection.columns group.flatten)) := by
  rw [merging.table_eq, undropped, dropRepeated]
  simp only [Bool.false_eq_true, if_false, List.map_map]
  refine ((merging.groups_perm reading source plain).map _).trans (List.Perm.of_eq ?_)
  rw [List.map_map]
  apply List.map_congr_left
  intro group isGroup
  exact merging.cellsAt_merged reading plain there isCount
    (pieced_of_mem_groupedParts (selection.keptRows_ne_nil reading source) isGroup)

theorem wholeTable_cells {index : Nat} {column : Column}
    (there : selection.columns[index]? = some column) {unique : Bool}
    (isCount : column.aggregate = some (.count unique)) :
    (selection.wholeTable reading source).map (cellsAt (index :: selection.grouping)) =
      (groupedParts (selection.grouping.map (valueAt reading selection.columns))
        (selection.keptRows reading source)).map fun group =>
          .number (reading.count group.flatten unique column.expression) ::
            cellsAt selection.grouping (rowOf reading selection.columns group.flatten) := by
  rw [merging.wholeTable_eq, List.map_map]
  apply List.map_congr_left
  intro group _
  simp [cellsAt, rowOf, there, Reading.cell, isCount, Aggregate.count]

end Merging

/-- A union counts the different values of an expression over all its rows, group by group,
exactly when no two of its parts have rows with the same keys and the same value. -/
theorem Selection.distinct_counts_perm_iff {selection : Selection} {statement : Statement}
    (succeeds : selection.assemble = .ok statement) (several : statement.isUnion = true)
    (undropped : selection.distinct = false)
    (plain : ∀ key ∈ selection.grouping, ∀ column, selection.columns[key]? = some column →
      column.aggregate = none)
    (names : (selection.columns.filterMap Column.name).Nodup)
    {index : Nat} {column : Column} (there : selection.columns[index]? = some column)
    (isCount : column.aggregate = some (.count true)) (unstarred : column.expression.text ≠ "*")
    (reading : Reading R V) (source : Nat → List R) :
    (((statement.table reading fun number _ => source number).map
          (cellsAt (index :: selection.grouping))).Perm
        ((selection.wholeTable reading source).map (cellsAt (index :: selection.grouping))) ↔
      (selection.keptRows reading source).Pairwise
        (Apart (selection.grouping.map (valueAt reading selection.columns))
          fun row => reading.value row column.expression)) ∧
      statement.page = selection.page := by
  have aggregating : (selection.columns.any fun column => column.aggregate.isSome) = true :=
    List.any_eq_true.mpr ⟨column, List.mem_of_getElem? there, by simp [isCount]⟩
  obtain ⟨named, columns, merging⟩ := Selection.merging succeeds several
    (by simp [Selection.needsMerging, aggregating]) (fun _ => aggregating) names
  have table := merging.table_cells_perm reading source undropped
    (merging.keys_plain plain) there isCount
  have whole := merging.wholeTable_cells reading source there isCount
  refine ⟨?_, Selection.page_ok succeeds⟩
  rw [whole, ← pairwise_groupedParts]
  refine Iff.trans ⟨table.symm.trans, table.trans⟩ ((numbered_perm_iff fun group _ => ?_).trans ?_)
  · rw [reading.count_distinct_flatten unstarred, reading.sum_count_distinct unstarred]
    exact length_dedup_flatten_le _
  · apply forall₂_congr
    intro group _
    rw [reading.count_distinct_flatten unstarred, reading.sum_count_distinct unstarred]
    exact length_dedup_flatten_eq_iff _

/-! ## A value in two branches -/

def sharedValueText : String :=
  "MATCH (n:ip:domain) RETURN count(DISTINCT n.value)"

/-- A union of branches that count the different values of their one column comes to `counted`,
though all rows together have `all` of them. -/
def CountsDistinct (db : Database String) (counted all : List (List (Cell String)))
    (selection : Selection) (statement : Statement) (sources : List (Source Statement)) : Bool :=
  statement.isUnion && !selection.distinct && selection.grouping.isEmpty &&
    (selection.columns[0]?.any fun column =>
      column.aggregate = some (.count true) && column.expression.text != "*") &&
    decide (selection.columns.filterMap Column.name).Nodup &&
    (statement.result db).map (cellsAt [0]) = counted &&
    (selection.wholeTable db.reading fun _ => db.assignments sources).map (cellsAt [0]) = all

theorem sharedValueText_counts : ∃ query selection projections statement sources column,
    Cypher.Query.parse sharedValueText = .ok query ∧
      query.selection .standard = .ok (selection, projections) ∧
      selection.assemble = .ok statement ∧ assembleSources selection.sources = .ok sources ∧
      statement.isUnion = true ∧ selection.distinct = false ∧ selection.grouping = [] ∧
      (selection.columns.filterMap Column.name).Nodup ∧
      selection.columns[0]? = some column ∧ column.aggregate = some (.count true) ∧
      column.expression.text ≠ "*" ∧
      (statement.result twoAssets).map (cellsAt [0]) = [[.number 2]] ∧
      (selection.wholeTable twoAssets.reading fun _ => twoAssets.assignments sources).map
        (cellsAt [0]) = [[.number 1]] := by
  have evaluated : Assembles sharedValueText
      (CountsDistinct twoAssets [[.number 2]] [[.number 1]]) = true := by
    decide +kernel
  obtain ⟨query, selection, projections, statement, sources, parsed, selected, succeeds, areSources,
    counts⟩ := exists_of_assembles evaluated
  simp only [CountsDistinct, Bool.and_eq_true, List.isEmpty_iff, decide_eq_true_eq,
    Bool.not_eq_true', Option.any_eq_true, bne_iff_ne] at counts
  obtain ⟨⟨⟨⟨⟨⟨several, undropped⟩, keyless⟩, column, there, isCount, unstarred⟩, names⟩, counted⟩,
    all⟩ := counts
  exact ⟨query, selection, projections, statement, sources, column, parsed, selected, succeeds,
    areSources, several, undropped, keyless, names, there, isCount, unstarred, counted, all⟩

theorem Selection.distinct_counts_perm_iff_sharedValueText :
    ∃ query selection projections statement sources column,
      Cypher.Query.parse sharedValueText = .ok query ∧
        query.selection .standard = .ok (selection, projections) ∧
        selection.assemble = .ok statement ∧ assembleSources selection.sources = .ok sources ∧
        statement.isUnion = true ∧ selection.distinct = false ∧ selection.grouping = [] ∧
        (selection.columns.filterMap Column.name).Nodup ∧
        selection.columns[0]? = some column ∧ column.aggregate = some (.count true) ∧
        column.expression.text ≠ "*" ∧
        (((statement.table twoAssets.reading fun _ _ => twoAssets.assignments sources).map
              (cellsAt (0 :: selection.grouping))).Perm
            ((selection.wholeTable twoAssets.reading fun _ => twoAssets.assignments sources).map
              (cellsAt (0 :: selection.grouping))) ↔
          (selection.keptRows twoAssets.reading fun _ => twoAssets.assignments sources).Pairwise
            (Apart (selection.grouping.map (valueAt twoAssets.reading selection.columns))
              fun row => twoAssets.reading.value row column.expression)) := by
  obtain ⟨query, selection, projections, statement, sources, column, parsed, selected, succeeds,
    areSources, several, undropped, keyless, names, there, isCount, unstarred, -, -⟩ :=
      sharedValueText_counts
  exact ⟨query, selection, projections, statement, sources, column, parsed, selected, succeeds,
    areSources, several, undropped, keyless, names, there, isCount, unstarred,
    (Selection.distinct_counts_perm_iff succeeds several undropped (by simp [keyless]) names there
      isCount unstarred twoAssets.reading fun _ => twoAssets.assignments sources).1⟩

/-- The one value that an address and a domain have is counted twice. -/
theorem not_table_perm_sharedValueText :
    ∃ query selection projections statement sources column,
      Cypher.Query.parse sharedValueText = .ok query ∧
        query.selection .standard = .ok (selection, projections) ∧
        selection.assemble = .ok statement ∧ assembleSources selection.sources = .ok sources ∧
        statement.isUnion = true ∧ selection.distinct = false ∧ selection.grouping = [] ∧
        selection.columns[0]? = some column ∧ column.aggregate = some (.count true) ∧
        column.expression.text ≠ "*" ∧
        ¬ ((statement.result twoAssets).map (cellsAt [0])).Perm
          ((selection.wholeTable twoAssets.reading fun _ => twoAssets.assignments sources).map
            (cellsAt [0])) := by
  obtain ⟨query, selection, projections, statement, sources, column, parsed, selected, succeeds,
    areSources, several, undropped, keyless, -, there, isCount, unstarred, counted, all⟩ :=
      sharedValueText_counts
  refine ⟨query, selection, projections, statement, sources, column, parsed, selected, succeeds,
    areSources, several, undropped, keyless, there, isCount, unstarred, ?_⟩
  rw [counted, all]
  decide

end CypherSql.Sql
