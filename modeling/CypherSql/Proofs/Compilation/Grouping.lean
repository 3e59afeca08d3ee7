import CypherSql.Proofs.Compilation.Amounts
import CypherSql.Proofs.Sql.Branches

/-! # What an aggregating query is grouped by

The items of a result are laid out one after the other, and a column is a key exactly where nothing
is counted in it.  A union is grouped twice, so there every other column has to be one count.

* `map_value_columnsOf` — the columns of an item.
* `ItemColumns` — what is counted in them.
* `KeysApart` — the keys of a layout are the columns in which nothing is counted.
* `layoutItems_groups` — the items of a result keep them apart.
* `Statement.GroupsBy` — the `GROUP BY` of all parts of a statement.
* `isCount_of_isUnion` — a union aggregates nothing but whole counts.
-/

namespace CypherSql

open CypherSql.Compilation.Lexicon (Counts)
open CypherSql.Cypher
open CypherSql.Sql (Column Fragment Merged Selection Statement keyOf)

namespace Compilation

/-! ## The columns of an item -/

/-- An item lists what its expression becomes in a list of columns. -/
theorem map_value_columnsOf {compiled : Compiled} (laid : Laid compiled) (item : ProjectionItem) :
    (Layout.columnsOf item compiled).1.map Column.value = compiled.columns := by
  cases isSlot : compiled.slot with
  | some slot =>
    obtain ⟨-, columns, noAggregate, plain⟩ := laid.slot slot isSlot
    simp only [Layout.columnsOf, noAggregate, plain]
    rcases compiled.columns with _ | ⟨first, _ | ⟨second, rest⟩⟩
    · rfl
    · rfl
    · simp [Column.value, Column.plain, Function.comp_def]
  | none =>
    obtain ⟨-, columns⟩ := laid.value isSlot
    rw [columns]
    unfold Layout.columnsOf
    cases isAggregate : compiled.aggregate with
    | some aggregate =>
      rw [laid.aggregate aggregate.1 aggregate.2 isAggregate]
      rfl
    | none =>
      dsimp only
      split
      · rfl
      · rw [columns]
        rfl

/-- What an expression aggregates can be seen in each of its columns. -/
theorem counts_of_mem_columns {compiled : Compiled} (laid : Laid compiled)
    (counts : Counts compiled.operand ↔ compiled.aggregates = true) {column : Fragment}
    (isOne : column ∈ compiled.columns) : Counts column ↔ compiled.aggregates = true := by
  cases isSlot : compiled.slot with
  | none =>
    rw [(laid.value isSlot).2] at isOne
    rw [← counts, operand_of_slot_none isSlot, List.mem_singleton.mp isOne]
  | some slot =>
    obtain ⟨-, columns, -, plain⟩ := laid.slot slot isSlot
    rw [columns] at isOne
    obtain ⟨name, _, rfl⟩ := List.mem_map.mp isOne
    exact iff_of_false (Lexicon.not_counts_of_operand rfl) (by simp [plain])

/-- A column is no key exactly where something is counted in it. -/
theorem columnsOf_areKeys {compiled : Compiled} (coherent : Coherent compiled)
    (item : ProjectionItem) : (Layout.columnsOf item compiled).2 = !compiled.aggregates := by
  unfold Layout.columnsOf
  cases isAggregate : compiled.aggregate with
  | some aggregate =>
    have aggregates := coherent (by rw [isAggregate]; rfl)
    rw [aggregates]
    rfl
  | none =>
    cases compiled.aggregates with
    | true => rfl
    | false =>
      dsimp only
      rw [if_neg Bool.false_ne_true]
      split <;> rfl

/-- A column is an aggregate as a whole where the expression is one. -/
theorem isSome_aggregate_of_mem_columnsOf {compiled : Compiled} {item : ProjectionItem}
    {column : Column} (isOne : column ∈ (Layout.columnsOf item compiled).1) :
    column.aggregate.isSome = compiled.aggregate.isSome := by
  cases isAggregate : compiled.aggregate with
  | some aggregate =>
    simp only [Layout.columnsOf, isAggregate, List.mem_singleton] at isOne
    rw [isOne]
    rfl
  | none =>
    rw [columnsOf_plain isAggregate isOne]
    rfl

/-- The columns of an item of `RETURN`. -/
structure ItemColumns (events : List Event) (item : ProjectionItem) (columns : List Column) :
    Prop where
  present : columns ≠ []
  counts : ∀ column ∈ columns, Counts column.value ↔ UsesAggregate events item.expression
  whole : ∀ column ∈ columns, column.aggregate.isSome = true ↔ IsCount events item.expression

/-- As many columns as the kind of the item asks for. -/
def HasWidth (projection : Projection) (columns : List Column) : Prop :=
  columns.length = projection.kind.width

section

variable {settings : Settings} {events : List Event} {progress next : Progress}
  (knows : Knows settings events progress) {item : ProjectionItem} {compiled : Compiled}
  (compiles : progress.compile item.expression = .ok (compiled, next))

include knows compiles

theorem Knows.coherent : Coherent compiled :=
  Progress.compile_holds (knows.sound.compiled.made (made_coherent settings)) compiles

theorem Knows.hasWidth :
    HasWidth ⟨Layout.itemName item, compiled.kind⟩ (Layout.columnsOf item compiled).1 := by
  have holds := columnsOf_holds (Progress.compile_laid knows.sound.compiled compiles)
    (Progress.compile_single knows.sound.compiled compiles) item
  rw [HasWidth, ← holds.length, List.length_map]

theorem Knows.itemColumns : ItemColumns events item (Layout.columnsOf item compiled).1 where
  present := by
    have width : _ = compiled.kind.width := knows.hasWidth compiles
    generalize compiled.kind = kind at width
    intro none
    rw [none] at width
    cases kind <;> contradiction
  counts column isOne := by
    have laid := Progress.compile_laid knows.sound.compiled compiles
    rw [← knows.usesAggregate_iff compiles]
    apply counts_of_mem_columns laid (Progress.compile_counts_iff knows.sound.compiled compiles)
    rw [← map_value_columnsOf laid item]
    exact List.mem_map_of_mem isOne
  whole column isOne := by
    rw [isSome_aggregate_of_mem_columnsOf isOne, knows.isCount_iff compiles]

end

/-- Behind these events, an item becomes these columns. -/
def BecomesColumns (settings : Settings) (events : List Event) (item : ProjectionItem)
    (columns : List Column) : Prop :=
  ∃ progress next compiled, Knows settings events progress ∧
    progress.compile item.expression = .ok (compiled, next) ∧
    columns = (Layout.columnsOf item compiled).1

theorem BecomesColumns.itemColumns {settings : Settings} {events : List Event}
    {item : ProjectionItem} {columns : List Column} (becomes : BecomesColumns settings events item columns) :
    ItemColumns events item columns := by
  obtain ⟨progress, next, compiled, knows, compiles, rfl⟩ := becomes
  exact knows.itemColumns compiles

/-! ## Keys -/

/-- The keys are the columns in which nothing is counted, in their order. -/
structure KeysApart (columns : List Column) (keys : List Nat) : Prop where
  increasing : keys.Pairwise (· < ·)
  mem_iff : ∀ index, index ∈ keys ↔
    ∃ column, columns[index]? = some column ∧ ¬Counts column.value

theorem keysApart_empty : KeysApart [] [] where
  increasing := .nil
  mem_iff index := by simp

theorem KeysApart.lt_length {columns : List Column} {keys : List Nat}
    (apart : KeysApart columns keys) {index : Nat} (isKey : index ∈ keys) : index < columns.length := by
  obtain ⟨column, isColumn, -⟩ := (apart.mem_iff index).mp isKey
  exact (List.getElem?_eq_some_iff.mp isColumn).1

/-- The columns of an item become keys all together, or none of them does. -/
theorem KeysApart.append {columns more : List Column} {keys : List Nat}
    (apart : KeysApart columns keys) {areKeys : Bool}
    (each : ∀ column ∈ more, Counts column.value ↔ areKeys = false) :
    KeysApart (columns ++ more)
      (if areKeys then keys ++ List.range' columns.length more.length else keys) where
  increasing := by
    split
    · refine List.pairwise_append.mpr ⟨apart.increasing, List.pairwise_lt_range', ?_⟩
      intro earlier isEarlier later isLater
      exact Nat.lt_of_lt_of_le (apart.lt_length isEarlier) (List.left_le_of_mem_range' isLater)
    · exact apart.increasing
  mem_iff index := by
    have early : index ∈ keys → index < columns.length := apart.lt_length
    have inKeys := apart.mem_iff index
    rcases Nat.lt_or_ge index columns.length with inside | behind
    · rw [List.getElem?_append_left inside, ← inKeys]
      split
      · simp [List.mem_range'_1, Nat.not_le_of_lt inside]
      · rfl
    · rw [List.getElem?_append_right behind]
      have late : index ∉ keys := fun isKey => absurd (early isKey) (Nat.not_lt_of_le behind)
      cases areKeys with
      | true =>
        simp only [if_true, List.mem_append, late, false_or, List.mem_range'_1]
        constructor
        · rintro ⟨-, inside⟩
          have inMore : index - columns.length < more.length := by omega
          refine ⟨_, List.getElem?_eq_getElem inMore, ?_⟩
          rw [each _ (List.getElem_mem inMore)]
          exact Bool.false_ne_true.symm
        · rintro ⟨column, isColumn, -⟩
          obtain ⟨inMore, -⟩ := List.getElem?_eq_some_iff.mp isColumn
          omega
      | false =>
        refine iff_of_false late ?_
        rintro ⟨column, isColumn, plain⟩
        exact plain ((each column (List.mem_of_getElem? isColumn)).mpr rfl)

/-! ## Items -/

/-- The items of a result are laid out one after the other, and their keys are kept apart. -/
theorem layoutItems_groups {settings : Settings} {events : List Event} {progress after : Progress}
    (knows : Knows settings events progress) {layout result : Layout} {items : List ProjectionItem}
    (apart : KeysApart layout.columns layout.keys)
    (laid : layoutItems progress layout items = .ok (result, after)) :
    KeysApart result.columns result.keys ∧
      (result.aggregated = true ↔
        layout.aggregated = true ∨ ∃ item ∈ items, UsesAggregate events item.expression) ∧
      ∃ groups projections, result.columns = layout.columns ++ groups.flatten ∧
        result.projections = layout.projections ++ projections ∧
        List.Forall₂ (BecomesColumns settings events) items groups ∧
        List.Forall₂ HasWidth projections groups := by
  induction items generalizing progress layout with
  | nil =>
    obtain ⟨rfl, rfl⟩ := Prod.mk.inj (Except.ok.inj laid)
    exact ⟨apart, by simp, [], [], by simp, by simp, .nil, .nil⟩
  | cons item rest ih =>
    obtain ⟨⟨compiled, next⟩, compiles, laidRest⟩ := bind_eq_ok.mp laid
    have ofItem := knows.itemColumns compiles
    have areKeys : ∀ column ∈ (Layout.columnsOf item compiled).1,
        Counts column.value ↔ (Layout.columnsOf item compiled).2 = false := by
      intro column isOne
      rw [ofItem.counts column isOne, columnsOf_areKeys (knows.coherent compiles), Bool.not_eq_false',
        knows.usesAggregate_iff compiles]
    have apartNext :
        KeysApart (layout.add item compiled).columns (layout.add item compiled).keys :=
      apart.append areKeys
    obtain ⟨apartAll, aggregated, groups, projections, areColumns, areProjections, each, widths⟩ :=
      ih (knows.of_compile compiles) apartNext laidRest
    refine ⟨apartAll, ?_, (Layout.columnsOf item compiled).1 :: groups,
      ⟨Layout.itemName item, compiled.kind⟩ :: projections, ?_, ?_,
      .cons ⟨progress, next, compiled, knows, compiles, rfl⟩ each,
      .cons (knows.hasWidth compiles) widths⟩
    · rw [aggregated, List.exists_mem_cons_iff, ← or_assoc, ← knows.usesAggregate_iff compiles]
      exact or_congr_left Bool.or_eq_true_iff
    · rw [areColumns, List.flatten_cons, ← List.append_assoc]
      rfl
    · rw [areProjections, List.append_cons]
      rfl

section

variable {settings : Settings} {events : List Event} {items : List ProjectionItem}
  {groups : List (List Column)} (each : List.Forall₂ (BecomesColumns settings events) items groups)

include each

/-- Something is counted in a column only where its item uses an aggregate. -/
theorem exists_usesAggregate {column : Column} (isOne : column ∈ groups.flatten)
    (counts : Counts column.value) : ∃ item ∈ items, UsesAggregate events item.expression := by
  induction each with
  | nil => contradiction
  | @cons item _ _ _ first _ ih =>
    rw [List.flatten_cons, List.mem_append] at isOne
    rcases isOne with isFirst | later
    · exact ⟨item, List.mem_cons_self, (first.itemColumns.counts column isFirst).mp counts⟩
    · obtain ⟨item, isItem, uses⟩ := ih later
      exact ⟨item, List.mem_cons_of_mem _ isItem, uses⟩

/-- An item that uses an aggregate has a column in which something is counted. -/
theorem exists_counts {item : ProjectionItem} (isItem : item ∈ items)
    (uses : UsesAggregate events item.expression) :
    ∃ column ∈ groups.flatten, Counts column.value ∧
      (column.aggregate.isSome = true ↔ IsCount events item.expression) := by
  induction each with
  | nil => contradiction
  | cons first _ ih =>
    rw [List.flatten_cons]
    rcases List.mem_cons.mp isItem with rfl | later
    · have ofItem := first.itemColumns
      obtain ⟨column, isOne⟩ := List.exists_mem_of_ne_nil _ ofItem.present
      exact ⟨column, List.mem_append_left _ isOne, (ofItem.counts column isOne).mpr uses,
        ofItem.whole column isOne⟩
    · obtain ⟨column, isOne, counts⟩ := ih later
      exact ⟨column, List.mem_append_right _ isOne, counts⟩

end

end Compilation

open Compilation

/-- The columns and the grouping of a query. -/
theorem Cypher.Query.selection_groups {settings : Settings} {query : Query}
    {selection : Selection} {projections : List Projection}
    (selected : query.selection settings = .ok (selection, projections)) :
    (selection.aggregated = true ↔ query.IsAggregating) ∧
      (query.IsAggregating → KeysApart selection.columns selection.grouping) ∧
      (¬query.IsAggregating → selection.grouping = []) ∧
      ∃ groups, selection.columns = groups.flatten ∧
        List.Forall₂ (BecomesColumns settings query.clauseEvents) query.returnClause.items groups ∧
        List.Forall₂ HasWidth projections groups := by
  obtain ⟨progress, layout, final, page, progressed, _, laid, _, rfl, rfl⟩ :=
    Query.selection_ok selected
  have knows : Knows settings query.clauseEvents progress := (Query.run_clauses progressed).knows
  obtain ⟨apart, aggregated, groups, projections, areColumns, areProjections, each, widths⟩ :=
    layoutItems_groups knows keysApart_empty laid
  have aggregating : layout.aggregated = true ↔ query.IsAggregating :=
    aggregated.trans (or_iff_right Bool.false_ne_true)
  refine ⟨aggregating, fun isAggregating => ?_, fun plain => ?_, groups, areColumns, each, ?_⟩
  · rw [Layout.grouping, if_pos (aggregating.mpr isAggregating)]
    exact apart
  · rw [Layout.grouping, if_neg (mt aggregating.mp plain)]
  · rw [areProjections]
    exact widths

/-! ## Statements -/

namespace Sql

/-- Every `SELECT` of a statement is grouped by the columns with these numbers, and where the rows
of several are aggregated once more, the outer one is grouped by them, too. -/
structure Statement.GroupsBy (statement : Statement) (grouping : List Nat) : Prop where
  branches : ∀ branch ∈ statement.branches, List.Forall₂
    (fun index key => ∃ column, branch.columns[index]? = some column ∧ keyOf column = .ok key)
    grouping branch.keys
  outer : ∀ columns distinct branches keys page,
    statement = .merged columns distinct branches keys page →
      List.Forall₂ (fun index key => ∃ merged, columns[index]? = some merged ∧ merged.name = key)
        grouping keys

theorem forall₂_of_keysOf {columns : List Column} {grouping : List Nat} {keys : List Key}
    (areKeys : keysOf columns grouping = .ok keys) : List.Forall₂
      (fun index key => ∃ column, columns[index]? = some column ∧ keyOf column = .ok key)
      grouping keys := by
  refine (mapM_eq_ok.mp areKeys).imp fun index key isKey => ?_
  obtain ⟨column, isColumn, isKey⟩ := bind_eq_ok.mp isKey
  exact ⟨column, columnAt_eq_ok.mp isColumn, isKey⟩

theorem Selection.groupsBy {selection : Selection} {statement : Statement}
    (succeeds : selection.assemble = .ok statement) : statement.GroupsBy selection.grouping := by
  obtain ⟨_, assembled⟩ := Selection.assembled succeeds
  cases assembled with
  | single _ _ _ areKeys =>
    refine ⟨fun branch isOne => ?_, nofun⟩
    obtain rfl := List.mem_singleton.mp isOne
    exact forall₂_of_keysOf areKeys
  | @merged sources named keys columns outerKeys _ _ _ _ areKeys areColumns areOuterKeys =>
    constructor
    case branches =>
      intro branch isOne
      obtain ⟨clause, -, isOne⟩ := List.mem_flatMap.mp isOne
      obtain ⟨joins, -, rfl⟩ := List.mem_map.mp isOne
      exact forall₂_of_keysOf areKeys
    case outer =>
      rintro _ _ _ _ _ ⟨⟩
      refine (mapM_eq_ok.mp areOuterKeys).imp fun index key isKey => ?_
      obtain ⟨column, isColumn, isName⟩ := bind_eq_ok.mp isKey
      obtain ⟨inside, rfl⟩ := List.getElem?_eq_some_iff.mp (columnAt_eq_ok.mp isColumn)
      have each := mapM_eq_ok.mp areColumns
      have insideOuter : index < columns.length := each.length_eq ▸ inside
      have named := mergedColumn_name (each.get inside insideOuter)
      refine ⟨columns[index], List.getElem?_eq_getElem insideOuter, ?_⟩
      exact Option.some.inj (named.symm.trans (requiredName_eq_ok.mp isName))
  | union _ _ areKeys =>
    refine ⟨fun branch isOne => ?_, nofun⟩
    obtain ⟨clause, -, isOne⟩ := List.mem_flatMap.mp isOne
    obtain ⟨joins, -, rfl⟩ := List.mem_map.mp isOne
    exact forall₂_of_keysOf areKeys

/-- In a union every column is grouped by or is an aggregate as a whole. -/
theorem isSome_aggregate_of_requireMergeable {columns : List Column} {grouping : List Nat}
    (mergeable : requireMergeable columns grouping = .ok ()) {index : Nat} {column : Column}
    (isColumn : columns[index]? = some column) (other : index ∉ grouping) :
    column.aggregate.isSome = true := by
  unfold requireMergeable at mergeable
  split at mergeable
  · contradiction
  · next none =>
    rw [List.find?_eq_none] at none
    have isOne : (column, index) ∈ columns.zipIdx := List.mem_zipIdx_iff_getElem?.mpr isColumn
    exact Option.isSome_iff_ne_none.mpr (by simpa [other] using none _ isOne)

end Sql

/-! ## Whole queries -/

section

variable {settings : Settings} {query : Query} {selection : Selection}
  {projections : List Projection} {statement : Statement}
  (selected : query.selection settings = .ok (selection, projections))
  (assembles : selection.assemble = .ok statement)

include selected assembles

theorem plain_of_not_isAggregating (plain : ¬query.IsAggregating) :
    (∀ branch ∈ statement.branches,
      branch.keys = [] ∧ ∀ column ∈ branch.columns, ¬Counts column.value) ∧
    ∀ columns distinct branches keys page,
      statement ≠ .merged columns distinct branches keys page := by
  obtain ⟨aggregating, _, unkeyed, groups, areColumns, each, _⟩ := Query.selection_groups selected
  refine ⟨fun branch isOne => ⟨?_, fun column isColumn counts => ?_⟩, ?_⟩
  · have keys := (Selection.groupsBy assembles).branches branch isOne
    rwa [unkeyed plain, List.forall₂_nil_left_iff] at keys
  · have isValue : column.value ∈ selection.columns.map Column.value :=
      (Selection.branch_of assembles isOne).values ▸ List.mem_map_of_mem isColumn
    obtain ⟨other, isOther, same⟩ := List.mem_map.mp isValue
    exact plain (exists_usesAggregate each (areColumns ▸ isOther) (same ▸ counts))
  · rintro columns distinct branches keys page rfl
    have unneeded := Query.needsMerging_eq_false selected
      (Bool.eq_false_iff.mpr fun isAggregated => plain (aggregating.mp isAggregated))
    obtain ⟨-, assembled⟩ := Selection.assembled assembles
    cases assembled with
    | merged needed => exact absurd needed (Bool.eq_false_iff.mp unneeded)

/-- A union is grouped once more, which only counts survive. -/
theorem isCount_of_isUnion (several : statement.isUnion = true) {item : ProjectionItem}
    (isItem : item ∈ query.returnClause.items)
    (uses : UsesAggregate query.clauseEvents item.expression) :
    IsCount query.clauseEvents item.expression := by
  obtain ⟨aggregating, keyed, _, groups, areColumns, each, _⟩ := Query.selection_groups selected
  obtain ⟨column, isColumn, counts, whole⟩ := exists_counts each isItem uses
  rw [← areColumns] at isColumn
  obtain ⟨index, isColumn⟩ := List.mem_iff_getElem?.mp isColumn
  have isAggregating : query.IsAggregating := ⟨item, isItem, uses⟩
  have other : index ∉ selection.grouping := by
    rw [(keyed isAggregating).mem_iff]
    rintro ⟨found, isFound, uncounted⟩
    obtain rfl := Option.some.inj (isColumn.symm.trans isFound)
    exact uncounted counts
  have needed : selection.needsMerging = true := by
    simp [Selection.needsMerging, aggregating.mpr isAggregating]
  obtain ⟨-, assembled⟩ := Selection.assembled assembles
  cases assembled with
  | single => contradiction
  | union unneeded => exact absurd needed (Bool.eq_false_iff.mp unneeded)
  | merged _ mergeable =>
    exact whole.mp (Sql.isSome_aggregate_of_requireMergeable mergeable isColumn other)

end

end CypherSql
