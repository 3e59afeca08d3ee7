import CypherSql.Proofs.Compilation.Grouping
import CypherSql.Proofs.Compilation.Plain

/-! # What is counted in the SQL of a query

A database counts where it reads a call of `COUNT`.  With plain names and texts that is in the columns
of those items that use an aggregate, and what is grouped by are the other ones.

* `ReadsCount` — whether something is counted in what a column is read as.
* `Query.readsCount` — it is where the column has a count in it.
* `Grouped` — a statement that is grouped by the columns in which nothing is counted.
* `Query.compile_groups` — the statement of a query is.
-/

namespace CypherSql

open CypherSql.Compilation
open CypherSql.Compilation.Lexicon (Counts)
open CypherSql.Cypher
open CypherSql.Sql (Column Selection Statement calls hasComment tokens)
open CypherSql.Text (isIdentifier)

/-! ## Columns -/

/-- A column is read as SQL, and something is counted there or not. -/
def ReadsCount (column : Column) (counts : Prop) : Prop :=
  ∃ row, tokens column.value.text = some row ∧ (calls "COUNT" row = true ↔ counts)

section

variable {column : Column} {counts others : Prop}

theorem ReadsCount.congr (reads : ReadsCount column counts) (same : counts ↔ others) :
    ReadsCount column others := by
  obtain ⟨row, isRead, counted⟩ := reads
  exact ⟨row, isRead, counted.trans same⟩

theorem ReadsCount.false_iff (reads : ReadsCount column counts) :
    ReadsCount column False ↔ ¬counts := by
  constructor
  · rintro ⟨row, isRead, uncounted⟩ holds
    obtain ⟨found, isFound, counted⟩ := reads
    obtain rfl := Option.some.inj (isRead.symm.trans isFound)
    exact uncounted.mp (counted.mpr holds)
  · exact fun uncounted => reads.congr (iff_false_intro uncounted)

end

/-- With plain names and texts, what is counted in a column is read there. -/
theorem Cypher.Query.readsCount {settings : Settings} {query : Query} {selection : Selection}
    {projections : List Projection}
    (selected : query.selection settings = .ok (selection, projections))
    (tables : ∀ kind, isIdentifier (settings.table kind) = true) (plain : query.isPlain = true)
    {column : Column} (isColumn : column ∈ selection.columns)
    (uncommented : hasComment column.value.text = false) :
    ReadsCount column (Counts column.value) := by
  obtain ⟨phrase, written, plainOperands⟩ := Query.columns_plain selected plain column isColumn
  have areNames : ∀ table ∈ settings.tables, isIdentifier table = true :=
    List.forall_mem_cons.mpr ⟨tables .node, List.forall_mem_singleton.mpr (tables .relation)⟩
  have atoms : phrase.HasAtoms settings.tables := fun lexeme isOne stands =>
    Sql.Lexeme.isAtom areNames (plainOperands lexeme isOne) stands
  rw [← written] at uncommented
  rw [ReadsCount, ← written]
  exact ⟨phrase.tokens, (phrase.scans atoms).tokens_eq uncommented, phrase.calls_iff atoms⟩

/-! ## Grouping -/

/-- The columns of an item of `RETURN`: something is counted in all of them, or in none. -/
structure ItemReads (events : List Event) (item : ProjectionItem) (columns : List Column) : Prop where
  present : columns ≠ []
  counts : ∀ column ∈ columns, ReadsCount column (UsesAggregate events item.expression)
  whole : ∀ column ∈ columns, column.aggregate.isSome = true ↔ IsCount events item.expression

/-- The keys are the columns in which nothing is counted, in their order. -/
structure KeysRead (columns : List Column) (keys : List Nat) : Prop where
  increasing : keys.Pairwise (· < ·)
  mem_iff : ∀ index, index ∈ keys ↔
    ∃ column, columns[index]? = some column ∧ ReadsCount column False

/-- The statement of a query is grouped by the columns in which nothing is counted. -/
structure Grouped (query : Query) (selection : Selection) (projections : List Projection)
    (statement : Statement) : Prop where
  /-- The columns are those of the items, one item after the other, and something is counted in
  those of an item exactly where it uses an aggregate. -/
  columns : ∃ groups, selection.columns = groups.flatten ∧
    List.Forall₂ (ItemReads query.clauseEvents) query.returnClause.items groups ∧
    List.Forall₂ HasWidth projections groups
  values : ∀ branch ∈ statement.branches,
    branch.columns.map Column.value = selection.columns.map Column.value
  keys : statement.GroupsBy selection.grouping
  aggregating : query.IsAggregating → KeysRead selection.columns selection.grouping
  /-- Without aggregates there is no `GROUP BY`, neither in a branch nor around the branches. -/
  plain : ¬query.IsAggregating →
    (∀ branch ∈ statement.branches,
      branch.keys = [] ∧ ∀ column ∈ branch.columns, ReadsCount column False) ∧
    ∀ columns distinct branches keys page,
      statement ≠ .merged columns distinct branches keys page
  union : statement.isUnion = true → ∀ item ∈ query.returnClause.items,
    UsesAggregate query.clauseEvents item.expression → IsCount query.clauseEvents item.expression

theorem keysRead_of_keysApart {columns : List Column} {keys : List Nat}
    (reads : ∀ column ∈ columns, ReadsCount column (Counts column.value))
    (apart : KeysApart columns keys) : KeysRead columns keys where
  increasing := apart.increasing
  mem_iff index := by
    rw [apart.mem_iff]
    refine exists_congr fun column => and_congr_right fun isColumn => ?_
    exact (reads column (List.mem_of_getElem? isColumn)).false_iff.symm

/-- Columns with the same values are read in the same way. -/
theorem readsCount_of_value_mem {columns others : List Column}
    (reads : ∀ column ∈ columns, ReadsCount column (Counts column.value))
    (values : others.map Column.value = columns.map Column.value) {column : Column}
    (isOne : column ∈ others) : ReadsCount column (Counts column.value) := by
  obtain ⟨other, isOther, same⟩ := List.mem_map.mp (values ▸ List.mem_map_of_mem isOne)
  have readsOther := reads other isOther
  rwa [ReadsCount, same] at readsOther

theorem forall₂_itemReads {settings : Settings} {items : List ProjectionItem} {events : List Event}
    {groups : List (List Column)}
    (reads : ∀ column ∈ groups.flatten, ReadsCount column (Counts column.value))
    (each : List.Forall₂ (BecomesColumns settings events) items groups) :
    List.Forall₂ (ItemReads events) items groups := by
  induction each with
  | nil => exact .nil
  | cons becomes _ ih =>
    rw [List.flatten_cons, List.forall_mem_append] at reads
    have structural := becomes.itemColumns
    exact .cons ⟨structural.present, fun column isOne => (reads.1 column isOne).congr
      (structural.counts column isOne), structural.whole⟩ (ih reads.2)

/-- A query with plain names and texts, and without comments in its columns, is grouped by exactly its
other columns: those in which nothing is counted. -/
theorem Cypher.Query.compile_groups {settings : Settings} {query : Query} {compiled : CompiledQuery}
    (compiles : query.compile settings = .ok compiled)
    (tables : ∀ kind, isIdentifier (settings.table kind) = true) (plain : query.isPlain = true) :
    ∃ selection, query.selection settings = .ok (selection, compiled.projections) ∧
      selection.assemble = .ok compiled.statement ∧
      ((∀ column ∈ selection.columns, hasComment column.value.text = false) →
        Grouped query selection compiled.projections compiled.statement) := by
  obtain ⟨selection, selected, assembles⟩ := Query.compile_ok compiles
  refine ⟨selection, selected, assembles, fun uncommented => ?_⟩
  have reads : ∀ column ∈ selection.columns, ReadsCount column (Counts column.value) :=
    fun column isColumn => Query.readsCount selected tables plain isColumn (uncommented column isColumn)
  obtain ⟨_, keyed, _, groups, areColumns, each, widths⟩ := Query.selection_groups selected
  have values : ∀ branch ∈ compiled.statement.branches,
      branch.columns.map Column.value = selection.columns.map Column.value :=
    fun branch isOne => (Selection.branch_of assembles isOne).values
  constructor
  case columns => exact ⟨groups, areColumns, forall₂_itemReads (areColumns ▸ reads) each, widths⟩
  case values => exact values
  case keys => exact Selection.groupsBy assembles
  case aggregating => exact fun isAggregating => keysRead_of_keysApart reads (keyed isAggregating)
  case plain =>
    intro notAggregating
    obtain ⟨branches, unmerged⟩ := plain_of_not_isAggregating selected assembles notAggregating
    refine ⟨fun branch isBranch => ⟨(branches branch isBranch).1, fun column isColumn => ?_⟩, unmerged⟩
    have readsColumn := readsCount_of_value_mem reads (values branch isBranch) isColumn
    exact readsColumn.false_iff.mpr ((branches branch isBranch).2 column isColumn)
  case union => exact fun several _ => isCount_of_isUnion selected assembles several

def renamedCountText : String :=
  "MATCH (a:ip:domain)-[r]->(b) WITH (COUNT(b)) AS n RETURN n, a, b.value, (n) AS m"

theorem Cypher.Query.compile_groups_renamedCountText : ∃ query compiled selection,
    Query.parse renamedCountText = .ok query ∧ query.compile .standard = .ok compiled ∧
      compiled.statement.isUnion = true ∧ selection.grouping = [1, 2, 3, 4] ∧
      Grouped query selection compiled.projections compiled.statement := by
  have evaluated : ((Query.parse renamedCountText).toOption.any fun query =>
      query.isPlain && (query.compile .standard).toOption.any fun compiled =>
        compiled.statement.isUnion &&
          (query.selection .standard).toOption.any fun selected =>
            selected.1.grouping = [1, 2, 3, 4] &&
              selected.1.columns.all fun column => !hasComment column.value.text) = true := by
    decide +kernel
  simp only [Option.any_eq_true, toOption_eq_some, Bool.and_eq_true, decide_eq_true_eq,
    List.all_eq_true, Bool.not_eq_true'] at evaluated
  obtain ⟨query, parsed, plain, compiled, compiles, several, selected, isSelected, grouping,
    uncommented⟩ := evaluated
  have tables : ∀ kind, isIdentifier (Settings.standard.table kind) = true := by
    intro kind
    cases kind <;> decide
  obtain ⟨selection, isSelection, -, grouped⟩ := query.compile_groups compiles tables plain
  obtain rfl := Except.ok.inj (isSelected.symm.trans isSelection)
  exact ⟨query, compiled, selection, parsed, compiles, several, grouping, grouped uncommented⟩

/-- What is not plain may call `COUNT` or hide what follows: a name, a text, a label, an alias for a
negated value that is negated once more, and a table. -/
def uncountedQueries : List (Settings × String) :=
  [(.standard, "MATCH (a) RETURN `COUNT(*)`"),
    (.standard, "MATCH (a) RETURN \"' = COUNT(*) = '\""),
    (.standard, "MATCH (a) RETURN (a)-->(:`' = COUNT(*) = '`)"),
    (.standard, "MATCH (a) WITH -a.id AS x RETURN -x"),
    ({ Settings.standard with assetsTable := "COUNT(*)" }, "MATCH (a) RETURN (a)-->(b)")]

/-- A query that uses no aggregate and is not grouped as it should be. -/
def Miscounts (settings : Settings) (text : String) : Prop :=
  ∃ query compiled selection, Query.parse text = .ok query ∧
    query.compile settings = .ok compiled ∧
    query.selection settings = .ok (selection, compiled.projections) ∧ ¬query.IsAggregating ∧
    ¬Grouped query selection compiled.projections compiled.statement

/-- In none of these queries is an aggregate used.  Next to one, the first query is grouped by what is
read as a count. -/
theorem Cypher.Query.not_grouped_uncountedQueries :
    (∀ uncounted ∈ uncountedQueries, Miscounts uncounted.1 uncounted.2) ∧
      ∃ query compiled selection column row,
        Query.parse "MATCH (a) RETURN `COUNT(*)`, COUNT(a)" = .ok query ∧
        query.compile .standard = .ok compiled ∧
        query.selection .standard = .ok (selection, compiled.projections) ∧
        selection.grouping = [0] ∧ selection.columns[0]? = some column ∧
        tokens column.value.text = some row ∧ calls "COUNT" row = true := by
  constructor
  · have evaluated : (uncountedQueries.all fun uncounted =>
        (Query.parse uncounted.2).toOption.any fun query =>
          (query.compile uncounted.1).toOption.any fun compiled =>
            (query.selection uncounted.1).toOption.any (fun selected => !selected.1.aggregated) &&
              compiled.statement.branches.any fun branch => branch.columns.any fun column =>
                (tokens column.value.text).all (calls "COUNT")) = true := by
      decide +kernel
    intro uncounted isOne
    have found := List.all_eq_true.mp evaluated uncounted isOne
    simp only [Option.any_eq_true, toOption_eq_some, Bool.and_eq_true, Bool.not_eq_true',
      List.any_eq_true, Option.all_eq_true] at found
    obtain ⟨query, parsed, compiled, compiles, ⟨selected, isSelected, unaggregated⟩, branch, isBranch,
      column, isColumn, counted⟩ := found
    obtain ⟨selection, isSelection, -⟩ := Query.compile_ok compiles
    obtain rfl := Except.ok.inj (isSelected.symm.trans isSelection)
    have notAggregating : ¬query.IsAggregating := fun isAggregating =>
      Bool.eq_false_iff.mp unaggregated ((Query.selection_groups isSelection).1.mpr isAggregating)
    refine ⟨query, compiled, selection, parsed, compiles, isSelection, notAggregating, fun grouped => ?_⟩
    obtain ⟨row, isRead, uncounted⟩ := ((grouped.plain notAggregating).1 branch isBranch).2 column isColumn
    exact uncounted.mp (counted row isRead)
  · have evaluated : ((Query.parse "MATCH (a) RETURN `COUNT(*)`, COUNT(a)").toOption.any fun query =>
        (query.compile .standard).toOption.any fun compiled =>
          (query.selection .standard).toOption.any fun selected =>
            selected.1.grouping = [0] && selected.1.columns[0]?.any fun column =>
              (tokens column.value.text).any (calls "COUNT")) = true := by
      decide +kernel
    simp only [Option.any_eq_true, toOption_eq_some, Bool.and_eq_true, decide_eq_true_eq]
      at evaluated
    obtain ⟨query, parsed, compiled, compiles, selected, isSelected, grouping, column, isColumn, row,
      isRead, counted⟩ := evaluated
    obtain ⟨selection, isSelection, -⟩ := Query.compile_ok compiles
    obtain rfl := Except.ok.inj (isSelected.symm.trans isSelection)
    exact ⟨query, compiled, selection, column, row, parsed, compiles, isSelection, grouping, isColumn,
      isRead, counted⟩

end CypherSql
