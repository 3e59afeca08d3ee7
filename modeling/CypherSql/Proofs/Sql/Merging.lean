import CypherSql.Proofs.Sql.Assembled
import CypherSql.Proofs.Sql.Grouping
import CypherSql.Proofs.Sql.Names

/-! # Counting across the branches of a union

A query that groups and counts becomes, when it is split, a union of branches that each group
and count their own rows, inside a query that groups once more and adds the counts up.  That
query computes what grouping and counting the rows of all branches at once would.

* `Selection.keptRows` — the rows that each part of a query keeps.
* `Selection.wholeTable` — the table of all these rows together.
* `Selection.table_perm_wholeTable` — a union of counting branches computes that table.
-/

namespace CypherSql.Sql

variable {R V : Type} [DecidableEq V]

/-! ## All rows at once -/

/-- Every clause of the filter with every list of joins. -/
def Selection.parts (selection : Selection) : List (Condition Leaf × List Join) :=
  (branchConditions selection.condition).flatMap fun clause =>
    (joinAlternatives selection.joins).map fun joins => (clause, joins)

/-- The rows that each part keeps.  `source` gives the rows that its sources and joins give. -/
def Selection.keptRows (reading : Reading R V) (source : Nat → List R) (selection : Selection) :
    List (List R) :=
  selection.parts.zipIdx.map fun ((clause, _), number) =>
    (source number).filter fun row => clause.holds (reading.truth row)

def valueAt (reading : Reading R V) (columns : List Column) (index : Nat) (row : R) : Option V :=
  columns[index]?.bind fun column => reading.value row column.expression

/-- The table of a query over the rows of all its parts, grouped and aggregated at once. -/
def Selection.wholeTable (reading : Reading R V) (source : Nat → List R) (selection : Selection) :
    List (List (Cell V)) :=
  let groups := groupRows (selection.columns.any fun column => column.aggregate.isSome)
    (selection.grouping.map (valueAt reading selection.columns))
    (selection.keptRows reading source).flatten
  groups.map (rowOf reading selection.columns)

/-! ## Counts -/

theorem Reading.count_append (reading : Reading R V) (left right : List R) (expression : Fragment) :
    reading.count (left ++ right) false expression =
      reading.count left false expression + reading.count right false expression := by
  unfold count
  split
  · exact List.length_append
  · simp [dropRepeated]

theorem Reading.count_flatten (reading : Reading R V) (group : List (List R))
    (expression : Fragment) : reading.count group.flatten false expression =
      (group.map fun piece => reading.count piece false expression).sum := by
  induction group with
  | nil => simp [count, dropRepeated]
  | cons piece rest ih => rw [List.flatten_cons, count_append, ih, List.map_cons, List.sum_cons]

omit [DecidableEq V] in
theorem sumOf_numbers {counts : List Nat} (present : counts ≠ []) :
    sumOf (counts.map Cell.number) = (Cell.number counts.sum : Cell V) := by
  have numbers : (counts.map Cell.number).filterMap (Cell.number? (V := V)) = counts := by
    rw [List.filterMap_map]
    exact List.filterMap_some
  rw [sumOf, numbers]
  cases counts with
  | nil => contradiction
  | cons first rest => rfl

/-! ## Named columns -/

section

variable {columns named : List Column}

theorem columnAt_eq_ok {index : Nat} {column : Column} :
    columnAt columns index = .ok column ↔ columns[index]? = some column := by
  unfold columnAt
  cases columns[index]? <;> simp

theorem requiredName_eq_ok {column : Column} {name : String} :
    requiredName column = .ok name ↔ column.name = some name := by
  unfold requiredName
  cases column.name <;> simp

theorem find?_name {index : Nat} {column : Column} {name : String}
    (distinct : (columns.map Column.name).Nodup) (there : columns[index]? = some column)
    (isName : column.name = some name) :
    (columns.find? fun other => other.name == some name) = some column := by
  have present : (columns.find? fun other => other.name == some name).isSome := by
    rw [List.find?_isSome]
    exact ⟨column, List.mem_of_getElem? there, by simp [isName]⟩
  obtain ⟨found, isFound⟩ := Option.isSome_iff_exists.mp present
  have foundName : found.name = some name := by simpa using List.find?_some isFound
  have same : found = column := List.inj_on_of_nodup_map distinct
    (List.mem_of_find?_eq_some isFound) (List.mem_of_getElem? there) (foundName.trans isName.symm)
  rw [isFound, same]

theorem idxOf_name {index : Nat} {column : Column} {name : String}
    (distinct : (columns.map Column.name).Nodup) (there : columns[index]? = some column)
    (isName : column.name = some name) : (columns.map Column.name).idxOf (some name) = index := by
  obtain ⟨bound, rfl⟩ := List.getElem?_eq_some_iff.mp there
  have found := distinct.idxOf_getElem index (by simpa using bound)
  rwa [List.getElem_map, isName] at found

end

/-! ## What becomes of columns -/

section

variable {columns named : List Column} {grouping : List Nat}

theorem forall₂_at {α β : Type} {related : α → β → Prop} {xs : List α} {ys : List β}
    (all : List.Forall₂ related xs ys) {index : Nat} {x : α} (there : xs[index]? = some x) :
    ∃ y, ys[index]? = some y ∧ related x y := by
  induction all generalizing index with
  | nil => contradiction
  | cons first _ ih =>
    cases index with
    | zero =>
      obtain rfl := Option.some.inj there
      exact ⟨_, rfl, first⟩
    | succ index => exact ih there

theorem renamed_at (renamed : List.Forall₂ Renamed columns named) {index : Nat} {column : Column}
    (there : named[index]? = some column) :
    ∃ original, columns[index]? = some original ∧ Renamed original column :=
  forall₂_at renamed.flip there

omit [DecidableEq V] in
theorem valueAt_renamed (reading : Reading R V) (renamed : List.Forall₂ Renamed columns named)
    {index : Nat} {column : Column} (there : named[index]? = some column) (row : R) :
    valueAt reading columns index row = reading.value row column.expression := by
  obtain ⟨original, isOriginal, same⟩ := renamed_at renamed there
  rw [valueAt, isOriginal, Option.bind_some, same.expression]

omit [DecidableEq V] in
theorem keyValues_eq (reading : Reading R V) (renamed : List.Forall₂ Renamed columns named)
    (distinct : (named.map Column.name).Nodup) {keys : List Key}
    (areKeys : keysOf named grouping = .ok keys) :
    keys.map (reading.keyValue named) = grouping.map (valueAt reading columns) := by
  have each := mapM_eq_ok.mp areKeys
  clear areKeys
  induction each with
  | nil => rfl
  | @cons index key grouping keys isKey _ ih =>
    obtain ⟨column, isColumn, isKey⟩ := bind_eq_ok.mp isKey
    rw [columnAt_eq_ok] at isColumn
    obtain ⟨_, _, same⟩ := renamed_at renamed isColumn
    obtain ⟨name, isName⟩ := Option.isSome_iff_exists.mp same.isNamed
    simp only [keyOf, isName, Except.ok.injEq] at isKey
    subst isKey
    rw [List.map_cons, List.map_cons, ih]
    congr 1
    funext row
    rw [valueAt_renamed reading renamed isColumn, Reading.keyValue,
      find?_name distinct isColumn isName, Option.bind_some]

omit [DecidableEq V] in
theorem cellsNamed_eq (renamed : List.Forall₂ Renamed columns named)
    (distinct : (named.map Column.name).Nodup) {outerKeys : List String}
    (areKeys : (grouping.mapM fun index => do requiredName (← columnAt named index)) =
      .ok outerKeys) :
    outerKeys.map (cellNamed (V := V) (named.map Column.name)) =
      grouping.map fun index row => row.getD index (.data none) := by
  have each := mapM_eq_ok.mp areKeys
  clear areKeys
  induction each with
  | nil => rfl
  | @cons index key grouping keys isKey _ ih =>
    obtain ⟨column, isColumn, isKey⟩ := bind_eq_ok.mp isKey
    rw [columnAt_eq_ok] at isColumn
    obtain ⟨_, _, same⟩ := renamed_at renamed isColumn
    obtain ⟨name, isName⟩ := Option.isSome_iff_exists.mp same.isNamed
    simp only [requiredName, isName, Except.ok.injEq] at isKey
    subst isKey
    rw [List.map_cons, List.map_cons, ih]
    congr 1
    funext row
    rw [cellNamed, idxOf_name distinct isColumn isName]

end

/-! ## Columns over a group and over its pieces -/

section

variable {columns named : List Column} {grouping : List Nat}

/-- All aggregates are counts, and a query is grouped by exactly its other columns. -/
structure CountsByKey (columns : List Column) (grouping : List Nat) : Prop where
  counts : ∀ column ∈ columns, ∀ aggregate, column.aggregate = some aggregate →
    aggregate = .count false
  keys : ∀ index, index ∈ grouping ↔ ∃ column, columns[index]? = some column ∧
    column.aggregate = none

theorem rowOf_renamed (reading : Reading R V) (renamed : List.Forall₂ Renamed columns named) :
    rowOf reading named = rowOf reading columns := by
  funext group
  unfold rowOf
  induction renamed with
  | nil => rfl
  | cons first _ ih =>
    rw [List.map_cons, List.map_cons, ih, Reading.cell, Reading.cell, first.aggregate,
      first.expression]

/-- Where no aggregate is grouped by, the row made from a group has the key of the group. -/
theorem keepsKey_of_plain (reading : Reading R V)
    (plain : ∀ index ∈ grouping, ∃ column, columns[index]? = some column ∧ column.aggregate = none) :
    KeepsKey (fun row => (grouping.map (valueAt reading columns)).map fun key => key row)
      (fun inner => (grouping.map fun index (row : List (Cell V)) =>
        row.getD index (.data none)).map fun key => key inner)
      (List.map Cell.data) (rowOf reading columns) := by
  intro rows found present agree
  obtain ⟨first, rest, rfl⟩ := List.exists_cons_of_ne_nil present
  rw [← agree first List.mem_cons_self]
  simp only [List.map_map]
  apply List.map_congr_left
  intro index isKey
  obtain ⟨column, isColumn, isPlain⟩ := plain index isKey
  simp [rowOf, valueAt, isColumn, Reading.cell, isPlain]

theorem keepsKey_rowOf (reading : Reading R V) (plan : CountsByKey columns grouping) :
    KeepsKey (fun row => (grouping.map (valueAt reading columns)).map fun key => key row)
      (fun inner => (grouping.map fun index (row : List (Cell V)) =>
        row.getD index (.data none)).map fun key => key inner)
      (List.map Cell.data) (rowOf reading columns) :=
  keepsKey_of_plain reading fun index isKey => (plan.keys index).mp isKey

/-- The name of a column, and what becomes of the column under that name. -/
theorem mergedColumn_ok {column : Column} {merged : Merged}
    (isMerged : mergedColumn column = .ok merged) :
    ∃ name, column.name = some name ∧
      (column.aggregate = none → merged = .key name) ∧
      ∀ distinct, column.aggregate = some (.count distinct) → merged = .sum name := by
  obtain ⟨name, isName, isMerged⟩ := bind_eq_ok.mp isMerged
  refine ⟨name, ?_, fun plain => ?_, fun distinct isCount => ?_⟩
  · unfold requiredName at isName
    split at isName
    · next given isGiven => rw [isGiven, Except.ok.inj isName]
    · contradiction
  · simp only [plain] at isMerged
    exact (pure_eq_ok.mp isMerged).symm
  · simp only [isCount] at isMerged
    exact (pure_eq_ok.mp isMerged).symm

/-- The cell under the name of a column is what the column makes of a piece. -/
theorem cellNamed_rowOf (reading : Reading R V) (renamed : List.Forall₂ Renamed columns named)
    (distinct : (named.map Column.name).Nodup) {index : Nat} {column : Column} {name : String}
    (there : named[index]? = some column) (isName : column.name = some name) (piece : List R) :
    cellNamed (named.map Column.name) name (rowOf reading columns piece) =
      reading.cell piece column := by
  rw [cellNamed, idxOf_name distinct there isName, ← rowOf_renamed reading renamed]
  simp [rowOf, there]

/-- A column that is grouped by has the same value in all pieces of a group. -/
theorem mergedKey_eq (reading : Reading R V) (renamed : List.Forall₂ Renamed columns named)
    (distinct : (named.map Column.name).Nodup)
    {group : List (List R)} (pieced : Pieced (grouping.map (valueAt reading columns)) group)
    {index : Nat} {column : Column} (there : named[index]? = some column)
    (isKey : index ∈ grouping) (plain : column.aggregate = none) {merged : Merged}
    (isMerged : mergedColumn column = .ok merged) :
    merged.cell reading (named.map Column.name) (group.map (rowOf reading columns)) =
      reading.cell group.flatten column := by
  obtain ⟨name, isName, isPlain, -⟩ := mergedColumn_ok isMerged
  obtain rfl := isPlain plain
  have keyed : grouping.map (valueAt reading columns) ≠ [] :=
    List.ne_nil_of_mem (List.mem_map_of_mem isKey)
  obtain ⟨first, rest, rfl⟩ := List.exists_cons_of_ne_nil pieced.present
  obtain ⟨row, others, rfl⟩ :=
    List.exists_cons_of_ne_nil (pieced.inhabited keyed first List.mem_cons_self)
  simp [Merged.cell, cellNamed_rowOf reading renamed distinct there isName, Reading.cell, plain]

/-- The sum of a count column over the pieces of a group. -/
theorem mergedCount_eq (reading : Reading R V) (renamed : List.Forall₂ Renamed columns named)
    (distinct : (named.map Column.name).Nodup) {group : List (List R)} (present : group ≠ [])
    {index : Nat} {column : Column} (there : named[index]? = some column) {unique : Bool}
    (isCount : column.aggregate = some (.count unique)) {merged : Merged}
    (isMerged : mergedColumn column = .ok merged) :
    merged.cell reading (named.map Column.name) (group.map (rowOf reading columns)) =
      .number (group.map fun piece => reading.count piece unique column.expression).sum := by
  obtain ⟨name, isName, -, isSum⟩ := mergedColumn_ok isMerged
  obtain rfl := isSum unique isCount
  have sums : sumOf ((group.map fun piece => reading.count piece unique column.expression).map
      Cell.number) = (.number (group.map fun piece =>
        reading.count piece unique column.expression).sum : Cell V) :=
    sumOf_numbers (by simpa using present)
  rw [List.map_map] at sums
  simp only [Merged.cell, List.map_map, Function.comp_def,
    cellNamed_rowOf reading renamed distinct there isName, Reading.cell, isCount, Aggregate.count,
    BEq.rfl, if_true]
  exact sums

/-- What the outer query makes of the rows for the pieces of a group is what a column makes of
the group. -/
theorem mergedCell_eq (reading : Reading R V) (plan : CountsByKey columns grouping)
    (renamed : List.Forall₂ Renamed columns named) (distinct : (named.map Column.name).Nodup)
    {group : List (List R)} (pieced : Pieced (grouping.map (valueAt reading columns)) group)
    {index : Nat} {column : Column} (there : named[index]? = some column) {merged : Merged}
    (isMerged : mergedColumn column = .ok merged) :
    merged.cell reading (named.map Column.name) (group.map (rowOf reading columns)) =
      reading.cell group.flatten column := by
  obtain ⟨original, isOriginal, same⟩ := renamed_at renamed there
  -- A count of the group is the sum of the counts of its pieces.  A key is the same in all rows.
  cases isAggregate : column.aggregate with
  | some aggregate =>
    obtain rfl : aggregate = .count false :=
      plan.counts original (List.mem_of_getElem? isOriginal) aggregate (same.aggregate ▸ isAggregate)
    rw [mergedCount_eq reading renamed distinct pieced.present there isAggregate isMerged,
      ← reading.count_flatten]
    simp [Reading.cell, isAggregate, Aggregate.count]
  | none =>
    have isKey : index ∈ grouping :=
      (plan.keys index).mpr ⟨original, isOriginal, same.aggregate ▸ isAggregate⟩
    exact mergedKey_eq reading renamed distinct pieced there isKey isAggregate isMerged

theorem mergedRow_eq (reading : Reading R V) (plan : CountsByKey columns grouping)
    (renamed : List.Forall₂ Renamed columns named) (distinct : (named.map Column.name).Nodup)
    {group : List (List R)} (pieced : Pieced (grouping.map (valueAt reading columns)) group)
    {merged : List Merged}
    (areMerged : List.Forall₂ (fun column merged => mergedColumn column = .ok merged) named merged) :
    merged.map (Merged.cell reading (named.map Column.name) (group.map (rowOf reading columns))) =
      rowOf reading columns group.flatten := by
  obtain ⟨sameLength, each⟩ := List.forall₂_iff_get.mp areMerged
  have sameRow : rowOf reading columns group.flatten = named.map (reading.cell group.flatten) := by
    rw [← rowOf_renamed reading renamed, rowOf]
  rw [sameRow]
  apply List.ext_getElem (by simp [sameLength])
  intro index inMerged inRow
  have bound : index < named.length := by simpa using inRow
  rw [List.getElem_map, List.getElem_map]
  exact mergedCell_eq reading plan renamed distinct pieced (List.getElem?_eq_getElem bound)
    (each index bound (by simpa using inMerged))

theorem CountsByKey.aggregate_of_keyless (plan : CountsByKey columns grouping)
    (keyless : grouping = []) {column : Column} (isOne : column ∈ columns) :
    column.aggregate.isSome = true := by
  obtain ⟨index, there⟩ := List.mem_iff_getElem?.mp isOne
  by_contra plain
  have isKey := (plan.keys index).mpr ⟨column, there, by simpa using plain⟩
  rw [keyless] at isKey
  contradiction

theorem mergedColumn_aggregates {column : Column} {merged : Merged}
    (isMerged : mergedColumn column = .ok merged) :
    merged.aggregates = column.aggregate.isSome := by
  obtain ⟨name, _, isMerged⟩ := bind_eq_ok.mp isMerged
  cases isAggregate : column.aggregate with
  | none =>
    simp only [isAggregate] at isMerged
    obtain rfl := pure_eq_ok.mp isMerged
    rfl
  | some aggregate =>
    simp only [isAggregate] at isMerged
    obtain rfl := pure_eq_ok.mp isMerged
    split <;> rfl

theorem CountsByKey.any_aggregate (plan : CountsByKey columns grouping) (present : columns ≠ [])
    (keyless : grouping = []) : (columns.any fun column => column.aggregate.isSome) = true := by
  obtain ⟨first, rest, rfl⟩ := List.exists_cons_of_ne_nil present
  exact List.any_eq_true.mpr
    ⟨first, List.mem_cons_self, plan.aggregate_of_keyless keyless List.mem_cons_self⟩

theorem any_aggregate_renamed (renamed : List.Forall₂ Renamed columns named) :
    (named.any fun column => column.aggregate.isSome) =
      columns.any fun column => column.aggregate.isSome := by
  induction renamed with
  | nil => rfl
  | cons first _ ih => rw [List.any_cons, List.any_cons, ih, first.aggregate]

theorem any_aggregates_merged {merged : List Merged}
    (areMerged : List.Forall₂ (fun column merged => mergedColumn column = .ok merged) named merged) :
    merged.any Merged.aggregates = named.any fun column => column.aggregate.isSome := by
  induction areMerged with
  | nil => rfl
  | cons first _ ih => rw [List.any_cons, List.any_cons, ih, mergedColumn_aggregates first]

end

/-! ## Unions of counting branches -/

theorem groupRows_of_keyless {α κ : Type} [DecidableEq κ] {aggregated : Bool}
    {grouping : List Nat} {key : Nat → α → κ} (flag : grouping = [] → aggregated = true)
    (rows : List α) :
    groupRows aggregated (grouping.map key) rows = groupRows true (grouping.map key) rows := by
  unfold groupRows
  split
  · next keyless =>
    rw [List.isEmpty_iff, List.map_eq_nil_iff] at keyless
    rw [flag keyless]
  · rfl

theorem unionBranches_eq (selection : Selection) (columns : List Column)
    (sources : List (Source Statement)) (keys : List Key) :
    unionBranches columns sources keys (branchConditions selection.condition)
        (joinAlternatives selection.joins) =
      selection.parts.map fun (clause, joins) =>
        ⟨false, columns, sources, joins, clause.flatten, keys⟩ := by
  simp only [unionBranches, Selection.parts, List.map_flatMap, List.map_map, Function.comp_def]

/-- The rows of the branches of a union are made from the groups of the rows that its parts
keep. -/
theorem unionRows_unionBranches (reading : Reading R V) (source : Nat → List R)
    (selection : Selection) (columns : List Column) (sources : List (Source Statement))
    (keys : List Key) :
    unionRows reading (fun number _ => source number)
        (unionBranches columns sources keys (branchConditions selection.condition)
          (joinAlternatives selection.joins)) =
      (selection.keptRows reading source).flatMap fun part =>
        (groupRows (columns.any fun column => column.aggregate.isSome)
          (keys.map (reading.keyValue columns)) part).map (rowOf reading columns) := by
  rw [unionBranches_eq, unionRows, List.zipIdx_map, Selection.keptRows, List.flatMap_map,
    List.flatMap_map]
  simp only [Branch.table, dropRepeated, Condition.holds_flatten, Prod.map, id]
  rfl

theorem unionNames_unionBranches {selection : Selection} {columns : List Column}
    {sources : List (Source Statement)} {keys : List Key} (present : selection.parts ≠ []) :
    unionNames (unionBranches columns sources keys (branchConditions selection.condition)
      (joinAlternatives selection.joins)) = columns.map Column.name := by
  obtain ⟨first, rest, isList⟩ := List.exists_cons_of_ne_nil present
  rw [unionBranches_eq, isList]
  rfl

theorem Selection.parts_ne_nil (selection : Selection) : selection.parts ≠ [] := by
  have clauses : branchConditions selection.condition ≠ [] := by
    unfold branchConditions
    split <;> simp_all
  have alternatives : joinAlternatives selection.joins ≠ [] := by
    unfold joinAlternatives
    split <;> simp_all
  obtain ⟨clause, _, isClauses⟩ := List.exists_cons_of_ne_nil clauses
  simp [parts, alternatives, isClauses]

theorem CountsByKey.needsMerging {selection : Selection}
    (plan : CountsByKey selection.columns selection.grouping) (present : selection.columns ≠ []) :
    selection.needsMerging = true := by
  by_cases keyless : selection.grouping = []
  · simp [Selection.needsMerging, plan.any_aggregate present keyless]
  · simp [Selection.needsMerging, keyless]

def Statement.isUnion : Statement → Bool
  | single _ _ => false
  | _ => true

/-- A union of branches that count computes the table that a query has over the rows of all
its parts, whatever these rows are. -/
theorem Selection.table_perm_wholeTable {selection : Selection} {statement : Statement}
    (succeeds : selection.assemble = .ok statement) (several : statement.isUnion = true)
    (plain : selection.distinct = false)
    (plan : CountsByKey selection.columns selection.grouping)
    (names : (selection.columns.filterMap Column.name).Nodup) (reading : Reading R V)
    (source : Nat → List R) :
    (statement.table reading fun number _ => source number).Perm
        (selection.wholeTable reading source) ∧ statement.page = selection.page := by
  obtain ⟨present, assembled⟩ := Selection.assembled succeeds
  cases assembled with
  | single => contradiction
  | union unneeded =>
    rw [plan.needsMerging present] at unneeded
    contradiction
  | @merged sources named keys columns outerKeys _ _ areNamed _ areKeys areColumns areOuterKeys =>
    obtain ⟨renamed, distinct⟩ := withNames_ok areNamed names
    have kept : selection.keptRows reading source ≠ [] := by
      simpa [keptRows] using selection.parts_ne_nil
    -- The rows of the union, grouped once more, come from the pieces of the groups of all rows.
    obtain ⟨groups, outerGroups, innerGroups, pieced⟩ := groupRows_flatMap
      (fun _ _ => Cell.data.inj) (by simp) (keepsKey_rowOf reading plan) kept
    have rows : ∀ group ∈ groups, _ = rowOf reading selection.columns group.flatten :=
      fun group isGroup => mergedRow_eq reading plan renamed distinct (pieced group isGroup)
        (mapM_eq_ok.mp areColumns)
    -- Without keys all columns aggregate, so all three levels make one group of their rows.
    have flag : selection.grouping = [] →
        (selection.columns.any fun column => column.aggregate.isSome) = true :=
      plan.any_aggregate present
    have innerFlag : selection.grouping = [] →
        (named.any fun column => column.aggregate.isSome) = true := by
      rw [any_aggregate_renamed renamed]
      exact flag
    have outerFlag : selection.grouping = [] → columns.any Merged.aggregates = true := by
      rw [any_aggregates_merged (mapM_eq_ok.mp areColumns)]
      exact innerFlag
    refine ⟨?_, rfl⟩
    rw [Statement.table, plain, unionNames_unionBranches selection.parts_ne_nil,
      unionRows_unionBranches, keyValues_eq reading renamed distinct areKeys,
      cellsNamed_eq renamed distinct areOuterKeys]
    simp only [dropRepeated, Bool.false_eq_true, if_false, groupRows_of_keyless outerFlag,
      groupRows_of_keyless innerFlag, rowOf_renamed reading renamed]
    have whole : selection.wholeTable reading source = groups.map fun group =>
        columns.map (Merged.cell reading (named.map Column.name)
          (group.map (rowOf reading selection.columns))) := by
      rw [wholeTable, groupRows_of_keyless flag, innerGroups, List.map_map]
      exact (List.map_congr_left rows).symm
    rw [whole]
    have perm := outerGroups.map fun group =>
      columns.map (Merged.cell reading (named.map Column.name) group)
    rw [List.map_map] at perm
    exact perm

def valuesAndCounts : Selection where
  distinct := false
  columns := [⟨[.word "owner"], none, none⟩, ⟨[.word "asset"], some (.count false), none⟩]
  sources := []
  joins := []
  condition := .any [.leaf (.predicate [.word "left"]), .leaf (.predicate [.word "right"])]
  grouping := [0]
  aggregated := true
  page := ⟨none, none⟩

theorem countsByKey_valuesAndCounts :
    CountsByKey valuesAndCounts.columns valuesAndCounts.grouping where
  counts := by simp [valuesAndCounts]
  keys index := by
    rcases index with _ | _ | index <;> simp [valuesAndCounts]

theorem table_perm_wholeTable_valuesAndCounts :
    ∃ statement, valuesAndCounts.assemble = .ok statement ∧ statement.isUnion = true ∧
      (statement.table (⟨fun row _ => row < 3, fun row _ => some row, fun _ _ _ => .data none⟩ :
          Reading Nat Nat) fun number _ => if number = 0 then [1, 1, 2, 3] else []).Perm
        (valuesAndCounts.wholeTable
          ⟨fun row _ => row < 3, fun row _ => some row, fun _ _ _ => .data none⟩
          fun number => if number = 0 then [1, 1, 2, 3] else []) ∧
      statement.page = valuesAndCounts.page := by
  have evaluated : (valuesAndCounts.assemble.toOption.any Statement.isUnion) = true := by
    decide +kernel
  simp only [Option.any_eq_true, toOption_eq_some] at evaluated
  obtain ⟨statement, succeeds, several⟩ := evaluated
  exact ⟨statement, succeeds, several, Selection.table_perm_wholeTable succeeds several rfl
    countsByKey_valuesAndCounts (by decide) _ fun number => if number = 0 then [1, 1, 2, 3] else []⟩

end CypherSql.Sql
