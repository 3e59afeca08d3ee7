import CypherSql.Compilation.Basic
import CypherSql.Cypher.Parser.Query
import CypherSql.Proofs.Sql.Database
import CypherSql.Proofs.Sql.Outer
import Mathlib.Data.List.Duplicate

/-! # Counts where repeated rows are dropped

With `DISTINCT` the union of the branches drops rows that several branches give.  Where the
branches count, such rows agree in their keys and in their counts by chance only, and dropping
one of them loses what it counted.

* `sum_dedup_eq_iff` — when a sum survives that repeated members are dropped.
* `groupRows_dedup` — dropping repeated rows drops them in every group.
* `Merging.dropped_perm_iff` — when the counts of a merged union survive.
* `Selection.distinct_table_perm_iff` — when a query with `DISTINCT` counts all its rows.
-/

namespace CypherSql.Sql

/-! ## Repeated members of lists -/

section

variable {α κ : Type} [DecidableEq α]

theorem sum_dedup_le (f : α → Nat) (xs : List α) : (xs.dedup.map f).sum ≤ (xs.map f).sum :=
  ((List.dedup_sublist xs).map f).sum_le_sum fun _ _ => Nat.zero_le _

/-- A sum is the same without repeated members exactly when these are zero. -/
theorem sum_dedup_eq_iff (f : α → Nat) (xs : List α) :
    (xs.dedup.map f).sum = (xs.map f).sum ↔ ∀ x, xs.Duplicate x → f x = 0 := by
  induction xs with
  | nil => simp
  | cons x xs ih =>
    have le := sum_dedup_le f xs
    simp only [List.duplicate_cons_iff]
    by_cases again : x ∈ xs
    · rw [List.dedup_cons_of_mem again, List.map_cons, List.sum_cons]
      constructor
      · rintro same y (⟨rfl, _⟩ | repeated)
        · omega
        · exact ih.mp (by omega) y repeated
      · intro zero
        have first : f x = 0 := zero x (.inl ⟨rfl, again⟩)
        have rest := ih.mpr fun y repeated => zero y (.inr repeated)
        omega
    · rw [List.dedup_cons_of_notMem again, List.map_cons, List.map_cons, List.sum_cons,
        List.sum_cons, Nat.add_left_cancel_iff, ih]
      constructor
      · rintro zero y (⟨rfl, absurdly⟩ | repeated)
        · contradiction
        · exact zero y repeated
      · intro zero y repeated
        exact zero y (.inr repeated)

theorem filter_dedup (test : α → Bool) (xs : List α) :
    xs.dedup.filter test = (xs.filter test).dedup := by
  induction xs with
  | nil => rfl
  | cons x xs ih =>
    by_cases again : x ∈ xs <;> by_cases passes : test x = true <;>
      simp [again, passes, ih]

variable [DecidableEq κ]

theorem dedup_map_dedup (f : α → κ) (xs : List α) : (xs.dedup.map f).dedup = (xs.map f).dedup := by
  induction xs with
  | nil => rfl
  | cons x xs ih =>
    by_cases again : x ∈ xs
    · have image : f x ∈ xs.map f := List.mem_map_of_mem again
      rw [List.dedup_cons_of_mem again, ih, List.map_cons, List.dedup_cons_of_mem image]
    · rw [List.dedup_cons_of_notMem again, List.map_cons, List.map_cons]
      by_cases image : f x ∈ xs.map f
      · have there : f x ∈ xs.dedup.map f := by simpa using image
        rw [List.dedup_cons_of_mem image, List.dedup_cons_of_mem there, ih]
      · have away : f x ∉ xs.dedup.map f := by simpa using image
        rw [List.dedup_cons_of_notMem image, List.dedup_cons_of_notMem away, ih]

/-! ## Groups without repeated rows -/

theorem groupRows_dedup (keys : List (α → κ)) (rows : List α) :
    groupRows true keys rows.dedup = (groupRows true keys rows).map List.dedup := by
  by_cases keyless : keys = []
  · simp [groupRows, keyless]
  · simp only [groupRows, List.isEmpty_iff, keyless, if_false, groupsBy, dedup_map_dedup,
      List.map_map, filter_dedup, Function.comp_def]

omit [DecidableEq α] in
/-- A repeated row is repeated in one of the groups. -/
theorem exists_group (keys : List (α → κ)) {rows : List α} {row : α}
    (repeated : rows.Duplicate row) : ∃ group ∈ groupRows true keys rows, group.Duplicate row := by
  by_cases keyless : keys = []
  · exact ⟨rows, by simp [groupRows, keyless], repeated⟩
  · refine ⟨rows.filter fun other => (keys.map fun key => key other) = keys.map fun key => key row,
      ?_, ?_⟩
    · simp only [groupRows, List.isEmpty_iff, keyless, if_false, groupsBy]
      apply List.mem_map_of_mem
      exact List.mem_dedup.mpr (List.mem_map_of_mem repeated.mem)
    · have both := (List.duplicate_iff_sublist.mp repeated).filter fun other =>
        (keys.map fun key => key other) = keys.map fun key => key row
      simpa [List.duplicate_iff_sublist] using both

omit [DecidableEq α] in
theorem sublist_of_mem_groupRows {keys : List (α → κ)} {rows group : List α}
    (isGroup : group ∈ groupRows true keys rows) : group.Sublist rows := by
  by_cases keyless : keys = []
  · obtain rfl : group = rows := by simpa [groupRows, keyless] using isGroup
    exact List.Sublist.refl _
  · simp only [groupRows, List.isEmpty_iff, keyless, if_false, groupsBy, List.mem_map] at isGroup
    obtain ⟨found, _, rfl⟩ := isGroup
    exact List.filter_sublist

omit [DecidableEq α] in
/-- The rows of a group agree on every key. -/
theorem agree_of_mem_groupRows {keys : List (α → κ)} {rows group : List α}
    (isGroup : group ∈ groupRows true keys rows) {row other : α} (isOne : row ∈ group)
    (isOther : other ∈ group) : ∀ key ∈ keys, key row = key other := by
  intro key isKey
  have keyed : keys ≠ [] := List.ne_nil_of_mem isKey
  simp only [groupRows, List.isEmpty_iff, keyed, if_false, groupsBy, List.mem_map] at isGroup
  obtain ⟨found, _, rfl⟩ := isGroup
  have left : keys.map (fun key => key row) = found := by simpa using (List.mem_filter.mp isOne).2
  have right : keys.map (fun key => key other) = found := by
    simpa using (List.mem_filter.mp isOther).2
  exact List.map_inj_left.mp (left.trans right.symm) key isKey

end

/-! ## Counts -/

variable {R V : Type} [DecidableEq V]

/-- The number in a place of a row, where nothing and `NULL` count as zero. -/
def numberAt (index : Nat) (row : List (Cell V)) : Nat :=
  (row.getD index (.data none)).number?.getD 0

omit [DecidableEq V] in
theorem numberAt_of_getElem {index : Nat} {row : List (Cell V)} {count : Nat}
    (isNumber : row[index]? = some (.number count)) : numberAt index row = count := by
  simp [numberAt, isNumber, Cell.number?]

omit [DecidableEq V] in
theorem numberAt_eq_zero {row : List (Cell V)}
    (zero : ∀ count, Cell.number count ∈ row → count = 0) (index : Nat) :
    numberAt index row = 0 := by
  cases found : row[index]? with
  | none => simp [numberAt, found, Cell.number?]
  | some cell =>
    cases cell with
    | data value => simp [numberAt, found, Cell.number?]
    | number count =>
      rw [numberAt_of_getElem found]
      exact zero count (List.mem_of_getElem? found)

omit [DecidableEq V] in
/-- A sum that is `NULL`, for want of numbers, counts as zero too. -/
theorem number?_sumOf (cells : List (Cell V)) :
    (sumOf cells).number?.getD 0 = (cells.map fun cell => cell.number?.getD 0).sum := by
  have total : (cells.filterMap Cell.number?).sum =
      (cells.map fun cell => cell.number?.getD 0).sum := by
    induction cells with
    | nil => rfl
    | cons cell rest ih =>
      cases cell <;> simp [List.filterMap_cons, Cell.number?, ih]
  rw [← total, sumOf]
  split
  · next none => simp [none, Cell.number?]
  · rfl

section

variable {columns named : List Column}

omit [DecidableEq V] in
theorem cellNamed_eq (distinct : (named.map Column.name).Nodup) {index : Nat} {column : Column}
    {name : String} (there : named[index]? = some column) (isName : column.name = some name) :
    cellNamed (V := V) (named.map Column.name) name = fun row => row.getD index (.data none) := by
  funext row
  rw [cellNamed, idxOf_name distinct there isName]

omit [DecidableEq V] in
/-- What a count column of the branches becomes, for any rows of them. -/
theorem mergedCell_of_count (distinct : (named.map Column.name).Nodup) {index : Nat}
    {column : Column} (there : named[index]? = some column) {unique : Bool}
    (isCount : column.aggregate = some (.count unique)) {merged : Merged}
    (isMerged : mergedColumn column = .ok merged) (reading : Reading R V)
    (group : List (List (Cell V))) :
    merged.cell reading (named.map Column.name) group =
      sumOf (group.map fun row => row.getD index (.data none)) := by
  obtain ⟨name, isName, -, isSum⟩ := mergedColumn_ok isMerged
  obtain rfl := isSum unique isCount
  rw [Merged.cell, cellNamed_eq distinct there isName]

omit [DecidableEq V] in
theorem mergedCell_of_key (distinct : (named.map Column.name).Nodup) {index : Nat}
    {column : Column} (there : named[index]? = some column) (plain : column.aggregate = none)
    {merged : Merged} (isMerged : mergedColumn column = .ok merged) (reading : Reading R V)
    (group : List (List (Cell V))) :
    merged.cell reading (named.map Column.name) group =
      (group.head?.map fun row => row.getD index (.data none)).getD (.data none) := by
  obtain ⟨name, isName, isKey, -⟩ := mergedColumn_ok isMerged
  obtain rfl := isKey plain
  rw [Merged.cell, cellNamed_eq distinct there isName]

end

namespace Merging

variable {selection : Selection} {statement : Statement} {named : List Column}
  {columns : List Merged} (merging : Merging selection statement named columns)
  (plan : CountsByKey selection.columns selection.grouping) (reading : Reading R V)
  (source : Nat → List R)

include merging

omit [DecidableEq V] in
theorem numberAt_merged {index : Nat} {column : Column} (there : named[index]? = some column)
    {unique : Bool} (isCount : column.aggregate = some (.count unique))
    (group : List (List (Cell V))) :
    numberAt index (columns.map (Merged.cell reading (named.map Column.name) group)) =
      (group.map (numberAt index)).sum := by
  obtain ⟨merged, isOne, isMerged⟩ := forall₂_at merging.areColumns there
  have cell := mergedCell_of_count merging.distinct there isCount isMerged reading group
  simp only [numberAt, List.getD_eq_getElem?_getD, List.getElem?_map, isOne, Option.map_some,
    Option.getD_some, cell, number?_sumOf, List.map_map, Function.comp_def]
  rfl

theorem exists_piece {row : List (Cell V)} (isOne : row ∈ statement.innerRows reading source) :
    ∃ piece, row = rowOf reading selection.columns piece := by
  rw [merging.innerRows_eq reading source] at isOne
  obtain ⟨part, _, isOne⟩ := List.mem_flatMap.mp isOne
  obtain ⟨piece, _, rfl⟩ := List.mem_map.mp isOne
  exact ⟨piece, rfl⟩

/-- A count column holds numbers only. -/
theorem cell_of_count {index : Nat} {column : Column} (there : named[index]? = some column)
    {unique : Bool} (isCount : column.aggregate = some (.count unique)) {row : List (Cell V)}
    (isOne : row ∈ statement.innerRows reading source) :
    row.getD index (.data none) = .number (numberAt index row) := by
  obtain ⟨piece, rfl⟩ := merging.exists_piece reading source isOne
  obtain ⟨original, isOriginal, same⟩ := renamed_at merging.renamed there
  have isNumber : (rowOf reading selection.columns piece).getD index (.data none) =
      .number (reading.count piece unique original.expression) := by
    simp [rowOf, isOriginal, Reading.cell, ← same.aggregate, isCount, Aggregate.count]
  rw [numberAt, isNumber]
  rfl

include plan

/-- The numbers of a row stand in its count columns. -/
theorem count_of_number {row : List (Cell V)} (isOne : row ∈ statement.innerRows reading source)
    {index count : Nat} (isNumber : row[index]? = some (.number count)) :
    ∃ column, named[index]? = some column ∧ column.aggregate = some (.count false) := by
  obtain ⟨piece, rfl⟩ := merging.exists_piece reading source isOne
  rw [← rowOf_renamed reading merging.renamed, rowOf, List.getElem?_map, Option.map_eq_some_iff]
    at isNumber
  obtain ⟨column, there, isCell⟩ := isNumber
  obtain ⟨original, isOriginal, same⟩ := renamed_at merging.renamed there
  refine ⟨column, there, ?_⟩
  cases isAggregate : column.aggregate with
  | none => simp [Reading.cell, isAggregate] at isCell
  | some aggregate =>
    rw [plan.counts original (List.mem_of_getElem? isOriginal) aggregate
      (same.aggregate ▸ isAggregate)]

/-- Dropping repeated rows changes nothing about a group when these rows count nothing. -/
theorem merged_dedup {group : List (List (Cell V))}
    (isGroup : group ∈ groupRows true (outerKeysOf V selection) (statement.innerRows reading source))
    (zero : ∀ index row, group.Duplicate row → numberAt index row = 0) :
    columns.map (Merged.cell reading (named.map Column.name) group.dedup) =
      columns.map (Merged.cell reading (named.map Column.name) group) := by
  have inside := (sublist_of_mem_groupRows isGroup).subset
  cases group with
  | nil => rfl
  | cons first rest =>
    apply List.map_congr_left
    intro merged isOne
    obtain ⟨index, inColumns⟩ := List.mem_iff_getElem?.mp isOne
    obtain ⟨column, there, isMerged⟩ := forall₂_at merging.areColumns.flip inColumns
    obtain ⟨original, isOriginal, same⟩ := renamed_at merging.renamed there
    cases isAggregate : column.aggregate with
    | none =>
      have isKey : index ∈ selection.grouping :=
        (plan.keys index).mpr ⟨original, isOriginal, same.aggregate ▸ isAggregate⟩
      rw [mergedCell_of_key merging.distinct there isAggregate isMerged,
        mergedCell_of_key merging.distinct there isAggregate isMerged]
      -- Which row comes first may change, but all rows of the group have the same key.
      obtain ⟨other, others, isDedup⟩ : ∃ other others, (first :: rest).dedup = other :: others :=
        List.exists_cons_of_ne_nil (by simp)
      have isOther : other ∈ first :: rest :=
        List.mem_dedup.mp (isDedup ▸ List.mem_cons_self)
      rw [isDedup]
      exact agree_of_mem_groupRows isGroup isOther List.mem_cons_self
        (fun row => row.getD index (.data none)) (List.mem_map_of_mem isKey)
    | some aggregate =>
      obtain rfl : aggregate = .count false :=
        plan.counts original (List.mem_of_getElem? isOriginal) aggregate
          (same.aggregate ▸ isAggregate)
      have numbers : ∀ rows ⊆ first :: rest, rows.map (fun row => row.getD index (.data none)) =
          (rows.map (numberAt index)).map Cell.number := by
        intro rows among
        rw [List.map_map]
        apply List.map_congr_left
        intro row isRow
        exact merging.cell_of_count reading source there isAggregate (inside (among isRow))
      rw [mergedCell_of_count merging.distinct there isAggregate isMerged,
        mergedCell_of_count merging.distinct there isAggregate isMerged,
        numbers _ (List.dedup_subset _), numbers _ (List.Subset.refl _),
        sumOf_numbers (by simp), sumOf_numbers (by simp),
        (sum_dedup_eq_iff (numberAt index) (first :: rest)).mpr (zero index)]

/-- As long as no row is dropped, the outer query has the counts of all rows. -/
theorem counted_perm :
    ((groupRows true (outerKeysOf V selection)
        (statement.innerRows reading source)).map fun group =>
          columns.map (Merged.cell reading (named.map Column.name) group)).Perm
      (selection.wholeTable reading source) := by
  have plain : ∀ index ∈ selection.grouping, ∃ column, selection.columns[index]? = some column ∧
      column.aggregate = none := fun index => (plan.keys index).mp
  refine ((merging.groups_perm reading source plain).map _).trans (List.Perm.of_eq ?_)
  rw [merging.wholeTable_eq, List.map_map]
  apply List.map_congr_left
  intro group isGroup
  exact mergedRow_eq reading plan merging.renamed merging.distinct
    (pieced_of_mem_groupedParts (selection.keptRows_ne_nil reading source) isGroup) merging.areColumns

/-- The counts survive that repeated rows are dropped exactly when these rows count nothing. -/
theorem dropped_perm_iff :
    ((groupRows true (outerKeysOf V selection)
        (statement.innerRows reading source).dedup).map fun group =>
          columns.map (Merged.cell reading (named.map Column.name) group)).Perm
      ((groupRows true (outerKeysOf V selection)
        (statement.innerRows reading source)).map fun group =>
          columns.map (Merged.cell reading (named.map Column.name) group)) ↔
      ∀ row, (statement.innerRows reading source).Duplicate row →
        ∀ count, Cell.number count ∈ row → count = 0 := by
  rw [groupRows_dedup, List.map_map]
  constructor
  · intro perm row repeated count isCell
    obtain ⟨index, isNumber⟩ := List.mem_iff_getElem?.mp isCell
    obtain ⟨column, there, isCount⟩ := merging.count_of_number plan reading source repeated.mem isNumber
    -- The totals of this column agree, though no group can have gained by dropping rows.
    have totals := (perm.map (numberAt index)).sum_eq
    simp only [List.map_map, Function.comp_def, merging.numberAt_merged reading there isCount]
      at totals
    have each := eq_of_sum_eq (fun group _ => sum_dedup_le (numberAt index) group) totals.symm
    obtain ⟨group, isGroup, inGroup⟩ := exists_group (outerKeysOf V selection) repeated
    have zero := (sum_dedup_eq_iff (numberAt index) group).mp (each group isGroup).symm row inGroup
    rw [← zero, numberAt_of_getElem isNumber]
  · intro zero
    apply List.Perm.of_eq
    apply List.map_congr_left
    intro group isGroup
    apply merging.merged_dedup plan reading source isGroup
    intro index row repeated
    have inTable := repeated.mono_sublist (sublist_of_mem_groupRows isGroup)
    exact numberAt_eq_zero (zero row inTable) index

end Merging

section

variable {selection : Selection} {statement : Statement}

/-- A query with `DISTINCT` counts all its rows, whatever branches they are in, exactly when the
rows that several branches give alike count nothing. -/
theorem Selection.distinct_table_perm_iff (succeeds : selection.assemble = .ok statement)
    (several : statement.isUnion = true) (distinct : selection.distinct = true)
    (plan : CountsByKey selection.columns selection.grouping)
    (names : (selection.columns.filterMap Column.name).Nodup) (reading : Reading R V)
    (source : Nat → List R) :
    ((statement.table reading fun number _ => source number).Perm
        (selection.wholeTable reading source) ↔
      ∀ row, (statement.innerRows reading source).Duplicate row →
        ∀ count, Cell.number count ∈ row → count = 0) ∧
      statement.page = selection.page := by
  refine ⟨?_, Selection.page_ok succeeds⟩
  obtain ⟨present, _⟩ := Selection.assembled succeeds
  obtain ⟨named, columns, merging⟩ := Selection.merging succeeds several
    (plan.needsMerging present) (plan.any_aggregate present) names
  rw [merging.table_eq, distinct, dropRepeated, if_pos rfl]
  have whole := merging.counted_perm plan reading source
  rw [← merging.dropped_perm_iff plan reading source]
  exact ⟨fun perm => perm.trans whole.symm, fun perm => perm.trans whole⟩

/-! ## Two branches that count alike -/

/-- A text is a query, and its selection, the statement assembled from it and the tables it reads
pass a test. -/
def Assembles (text : String) (test : Selection → Statement → List (Source Statement) → Bool) :
    Bool :=
  (Cypher.Query.parse text).toOption.any fun query =>
    (query.selection .standard).toOption.any fun selected =>
      selected.1.assemble.toOption.any fun statement =>
        (assembleSources selected.1.sources).toOption.any fun sources =>
          test selected.1 statement sources

theorem exists_of_assembles {text : String}
    {test : Selection → Statement → List (Source Statement) → Bool}
    (passes : Assembles text test = true) : ∃ query selection projections statement sources,
      Cypher.Query.parse text = .ok query ∧
        query.selection .standard = .ok (selection, projections) ∧
        selection.assemble = .ok statement ∧ assembleSources selection.sources = .ok sources ∧
        test selection statement sources = true := by
  simp only [Assembles, Option.any_eq_true, toOption_eq_some] at passes
  obtain ⟨query, parsed, ⟨selection, projections⟩, selected, statement, succeeds, sources,
    areSources, tested⟩ := passes
  exact ⟨query, selection, projections, statement, sources, parsed, selected, succeeds, areSources,
    tested⟩

def distinctCountText : String :=
  "MATCH (n:ip:domain) RETURN DISTINCT count(n)"

/-- One address and one domain. -/
def twoAssets : Database String where
  table name :=
    if name = "assets" then
      ["ip", "domain"].map fun label column => some (if column = "type" then label else "1")
    else []
  nested _ := []
  extend _ _ := []
  constant := id
  predicate _ _ := true
  value _ _ := some "1"
  otherAggregate _ _ _ := .data none

theorem countsByKey_of_counts {columns : List Column}
    (counts : (columns.all fun column => column.aggregate = some (.count false)) = true) :
    CountsByKey columns [] where
  counts column isOne aggregate isAggregate := by
    have isCount := List.all_eq_true.mp counts column isOne
    rw [isAggregate] at isCount
    simpa using isCount
  keys index := by
    simp only [List.not_mem_nil, false_iff, not_exists, not_and]
    intro column there plain
    have isCount := List.all_eq_true.mp counts column (List.mem_of_getElem? there)
    rw [plain] at isCount
    contradiction

/-- A union with `DISTINCT` of branches that only count comes to `counted`, though all rows
together come to `all`. -/
def Counts (db : Database String) (counted all : List (List (Cell String)))
    (selection : Selection) (statement : Statement) (sources : List (Source Statement)) : Bool :=
  statement.isUnion && selection.distinct && selection.grouping.isEmpty &&
    (selection.columns.all fun column => column.aggregate = some (.count false)) &&
    decide (selection.columns.filterMap Column.name).Nodup && statement.result db = counted &&
    selection.wholeTable db.reading (fun _ => db.assignments sources) = all

theorem distinctCountText_counts : ∃ query selection projections statement sources,
    Cypher.Query.parse distinctCountText = .ok query ∧
      query.selection .standard = .ok (selection, projections) ∧
      selection.assemble = .ok statement ∧ assembleSources selection.sources = .ok sources ∧
      statement.isUnion = true ∧ selection.distinct = true ∧
      CountsByKey selection.columns selection.grouping ∧
      (selection.columns.filterMap Column.name).Nodup ∧
      statement.result twoAssets = [[.number 1]] ∧
      selection.wholeTable twoAssets.reading (fun _ => twoAssets.assignments sources) =
        [[.number 2]] := by
  have evaluated :
      Assembles distinctCountText (Counts twoAssets [[.number 1]] [[.number 2]]) = true := by
    decide +kernel
  obtain ⟨query, selection, projections, statement, sources, parsed, selected, succeeds, areSources,
    counts⟩ := exists_of_assembles evaluated
  simp only [Counts, Bool.and_eq_true, List.isEmpty_iff, decide_eq_true_eq] at counts
  obtain ⟨⟨⟨⟨⟨⟨several, distinct⟩, keyless⟩, counting⟩, names⟩, counted⟩, all⟩ := counts
  have plan : CountsByKey selection.columns selection.grouping :=
    keyless ▸ countsByKey_of_counts counting
  exact ⟨query, selection, projections, statement, sources, parsed, selected, succeeds, areSources,
    several, distinct, plan, names, counted, all⟩

theorem Selection.distinct_table_perm_iff_distinctCountText :
    ∃ query selection projections statement sources,
      Cypher.Query.parse distinctCountText = .ok query ∧
        query.selection .standard = .ok (selection, projections) ∧
        selection.assemble = .ok statement ∧ assembleSources selection.sources = .ok sources ∧
        statement.isUnion = true ∧ selection.distinct = true ∧
        CountsByKey selection.columns selection.grouping ∧
        (selection.columns.filterMap Column.name).Nodup ∧
        ((statement.table twoAssets.reading fun _ _ => twoAssets.assignments sources).Perm
            (selection.wholeTable twoAssets.reading fun _ => twoAssets.assignments sources) ↔
          ∀ row, (statement.innerRows twoAssets.reading fun _ =>
              twoAssets.assignments sources).Duplicate row →
            ∀ count, Cell.number count ∈ row → count = 0) := by
  obtain ⟨query, selection, projections, statement, sources, parsed, selected, succeeds, areSources,
    several, distinct, plan, names, -, -⟩ := distinctCountText_counts
  exact ⟨query, selection, projections, statement, sources, parsed, selected, succeeds, areSources,
    several, distinct, plan, names,
    (Selection.distinct_table_perm_iff succeeds several distinct plan names twoAssets.reading
      fun _ => twoAssets.assignments sources).1⟩

/-- Of an address and a domain only one is counted. -/
theorem not_table_perm_distinctCountText :
    ∃ query selection projections statement sources,
      Cypher.Query.parse distinctCountText = .ok query ∧
        query.selection .standard = .ok (selection, projections) ∧
        selection.assemble = .ok statement ∧ assembleSources selection.sources = .ok sources ∧
        statement.isUnion = true ∧ selection.distinct = true ∧
        CountsByKey selection.columns selection.grouping ∧
        ¬ (statement.result twoAssets).Perm
          (selection.wholeTable twoAssets.reading fun _ => twoAssets.assignments sources) := by
  obtain ⟨query, selection, projections, statement, sources, parsed, selected, succeeds, areSources,
    several, distinct, plan, -, counted, all⟩ := distinctCountText_counts
  refine ⟨query, selection, projections, statement, sources, parsed, selected, succeeds, areSources,
    several, distinct, plan, ?_⟩
  rw [counted, all]
  decide

end

end CypherSql.Sql
