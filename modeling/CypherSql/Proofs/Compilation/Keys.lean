import CypherSql.Proofs.Compilation.Grouping
import CypherSql.Proofs.Sql.Keys

/-! # What the members of `GROUP BY` denote

A column without a name is grouped by the text of its expression.  SQL reads that as the
expression, but for a number, which it takes for the position of a column, and for a word, which it
takes for the column with that name.

* `StandsAs` — the one lexeme that an expression is written as.
* `Knows.exists_standsAs` — only such an expression is written as a word.
* `getElem?_flatten_iff` — where the columns of an item stand.
* `Query.ItemMisleads` — the text of an item is taken for another column.
* `Query.keys_denote_iff` — when each key denotes the column that it was made for.
-/

namespace CypherSql

open CypherSql.Cypher
open CypherSql.Compilation.Lexicon (Counts)
open CypherSql.Sql (Branch Column Fragment KeyReading KeysDenote Lexeme Misleads Page ProperNames
  Selection Statement isWord readKey)

namespace Compilation

/-! ## Expressions of one lexeme -/

/-- No operator is written as a word. -/
theorem isWord_of_isSymbol {lexeme : Lexeme} (symbol : isSymbol lexeme = true) :
    isWord lexeme.text = false := by
  cases lexeme with
  | compare operator | add operator | multiply operator => cases operator <;> decide
  | like | negate | not | and | or | comma | opening | closing => decide
  | field | word | literal | star | existing | given | function | distinct => contradiction

/-- If one looks through parentheses and names, an expression is this constant, or this name, which
nothing defines. -/
inductive StandsAs (events : List Event) (expression : Expression) : Lexeme → Prop where
  | literal {earlier : List Event} {value : Literal}
      (amounts : AmountsTo events expression earlier ⟨.literal value, []⟩) :
      StandsAs events expression (.literal value)
  | word {earlier : List Event} {name : String}
      (amounts : AmountsTo events expression earlier ⟨.name name, []⟩)
      (unbound : name ∉ (namesAfter earlier).bound) (ungiven : given? earlier name = none) :
      StandsAs events expression (.word name)

theorem StandsAs.isOperand {events : List Event} {expression : Expression} {lexeme : Lexeme}
    (stands : StandsAs events expression lexeme) : lexeme.isOperand = true := by
  cases stands <;> rfl

section

variable {settings : Settings} {events : List Event} {progress next : Progress}
  {expression : Expression} {compiled : Compiled} (knows : Knows settings events progress)
  (compiles : progress.compile expression = .ok (compiled, next))

include knows compiles

theorem Knows.compile_of_standsAs {lexeme : Lexeme} (stands : StandsAs events expression lexeme) :
    compiled = .scalar [lexeme] := by
  cases stands with
  | literal amounts =>
    obtain ⟨before, state, -, ran⟩ := knows.compile_of_amountsTo amounts compiles
    exact (Except.ok.inj (congrArg Prod.fst ran)).symm
  | @word earlier name amounts unbound ungiven =>
    obtain ⟨before, state, knowsBefore, ran⟩ := knows.compile_of_amountsTo amounts compiles
    have unfound := knowsBefore.given name
    rw [ungiven] at unfound
    generalize isFound : before.bindings.find? name = found at unfound
    cases unfound with
    | none =>
      rw [compileTerm, run_compileName, knowsBefore.not_mem_bound_iff.mp unbound, isFound] at ran
      exact (Except.ok.inj (congrArg Prod.fst ran)).symm

/-- A single value that is written as a word is one lexeme. -/
theorem Knows.exists_standsAs (value : compiled.slot = none) (plain : compiled.aggregates = false)
    (isText : isWord compiled.sql.text = true) :
    ∃ lexeme, StandsAs events expression lexeme ∧ compiled = .scalar [lexeme] := by
  rcases knows.exists_amountsTo expression compiles with composite | ⟨earlier, term, amounts, means⟩
  · obtain ⟨lexeme, isOne, symbol⟩ := composite.symbol
    exact absurd (Sql.isWord_of_mem isText isOne)
      (Bool.eq_false_iff.mp (isWord_of_isSymbol symbol))
  · cases means with
    | literal value => exact ⟨_, .literal amounts, rfl⟩
    | word unbound ungiven => exact ⟨_, .word amounts unbound ungiven, rfl⟩
    | slot name slot path =>
      unfold compileSlot at value isText
      split at value
      · contradiction
      · next present =>
        rw [if_neg present] at isText
        exact absurd (Sql.isWord_of_mem isText (List.mem_singleton_self _))
          (Bool.eq_false_iff.mp (Sql.isWord_field _ _))
    | test pattern embedding =>
      exact absurd (Sql.isWord_of_mem isText (List.mem_singleton_self _))
        (Bool.eq_false_iff.mp (Sql.isWord_existing _))
    | countAll | counted => contradiction

end

/-! ## The columns of an item -/

/-- Without aggregates a single value has one column. -/
theorem columnsOf_of_value {compiled : Compiled} (laid : Laid compiled)
    (coherent : Coherent compiled) (value : compiled.slot = none)
    (plain : compiled.aggregates = false) (item : ProjectionItem) :
    (Layout.columnsOf item compiled).1 = [⟨compiled.sql, none, Layout.columnName item⟩] := by
  have noAggregate : compiled.aggregate = none := by
    rw [← Option.not_isSome_iff_eq_none]
    exact fun isAggregate => Bool.false_ne_true (plain.symm.trans (coherent isAggregate))
  simp [Layout.columnsOf, noAggregate, plain, (laid.value value).2]

/-- Only the one column of an item bears its name. -/
theorem names_columnsOf (item : ProjectionItem) (compiled : Compiled) :
    ((Layout.columnsOf item compiled).1.filterMap Column.name).Sublist
      (Layout.columnName item).toList := by
  have one (expression : Fragment) (aggregate : Option Sql.Aggregate) :
      ([⟨expression, aggregate, Layout.columnName item⟩] : List Column).filterMap Column.name =
        (Layout.columnName item).toList := by
    cases Layout.columnName item <;> simp
  unfold Layout.columnsOf
  split
  · rw [one]
  · split
    · rw [one]
    · split
      · rw [one]
      · simp [Column.plain, List.filterMap_map, Function.comp_def]

section

variable {settings : Settings} {events : List Event} {item : ProjectionItem} {columns : List Column}
  (becomes : BecomesColumns settings events item columns)

include becomes

theorem BecomesColumns.columns_of_standsAs {lexeme : Lexeme}
    (stands : StandsAs events item.expression lexeme) :
    columns = [⟨[lexeme], none, Layout.columnName item⟩] := by
  obtain ⟨progress, next, compiled, knows, compiles, rfl⟩ := becomes
  obtain rfl := knows.compile_of_standsAs compiles stands
  rfl

/-- A column of an item that is written as a word is its only one. -/
theorem BecomesColumns.exists_standsAs {column : Column} (isOne : column ∈ columns)
    (uncounted : ¬Counts column.value) (isText : isWord column.value.text = true) :
    ∃ lexeme, StandsAs events item.expression lexeme ∧
      columns = [⟨[lexeme], none, Layout.columnName item⟩] := by
  have ofItem := becomes.itemColumns
  obtain ⟨progress, next, compiled, knows, compiles, rfl⟩ := becomes
  have laid := Progress.compile_laid knows.sound.compiled compiles
  have plain : compiled.aggregates = false := by
    rw [← Bool.not_eq_true, knows.usesAggregate_iff compiles, ← ofItem.counts column isOne]
    exact uncounted
  cases isSlot : compiled.slot with
  | some slot =>
    have isColumn : column.value ∈ compiled.columns :=
      map_value_columnsOf laid item ▸ List.mem_map_of_mem isOne
    rw [(laid.slot slot isSlot).2.1] at isColumn
    obtain ⟨name, -, isField⟩ := List.mem_map.mp isColumn
    rw [← isField] at isText
    exact absurd (Sql.isWord_of_mem isText (List.mem_singleton_self _))
      (Bool.eq_false_iff.mp (Sql.isWord_field _ _))
  | none =>
    rw [columnsOf_of_value laid (knows.coherent compiles) isSlot plain item] at isOne
    obtain rfl := List.mem_singleton.mp isOne
    obtain ⟨lexeme, stands, rfl⟩ := knows.exists_standsAs compiles isSlot plain isText
    exact ⟨lexeme, stands, rfl⟩

end

/-! ## The columns of all items -/

theorem names_flatten {settings : Settings} {events : List Event} {items : List ProjectionItem}
    {groups : List (List Column)}
    (each : List.Forall₂ (BecomesColumns settings events) items groups) :
    (groups.flatten.filterMap Column.name).Sublist (items.filterMap Layout.columnName) := by
  induction each with
  | nil => exact .slnil
  | @cons item columns items groups first _ ih =>
    obtain ⟨progress, next, compiled, -, -, rfl⟩ := first
    have ofItem := names_columnsOf item compiled
    rw [List.flatten_cons, List.filterMap_append, List.filterMap_cons]
    cases isName : Layout.columnName item <;> simpa [isName] using ofItem.append ih

/-- The columns of an item stand behind those of the items before it. -/
theorem getElem?_flatten_iff {projections : List Projection} {groups : List (List Column)}
    (widths : List.Forall₂ HasWidth projections groups) {index : Nat} {column : Column} :
    groups.flatten[index]? = some column ↔
      ∃ number group offset, groups[number]? = some group ∧ group[offset]? = some column ∧
        index = rowWidth (projections.take number) + offset := by
  induction widths generalizing index with
  | nil => simp
  | @cons projection first projections groups width _ ih =>
    rw [List.flatten_cons]
    constructor
    · intro isColumn
      rcases Nat.lt_or_ge index first.length with inside | behind
      · rw [List.getElem?_append_left inside] at isColumn
        exact ⟨0, first, index, rfl, isColumn, (Nat.zero_add index).symm⟩
      · rw [List.getElem?_append_right behind] at isColumn
        obtain ⟨number, group, offset, isGroup, isColumn, position⟩ := ih.mp isColumn
        refine ⟨number + 1, group, offset, isGroup, isColumn, ?_⟩
        rw [List.take_succ_cons, rowWidth, ← width]
        omega
    · rintro ⟨number, group, offset, isGroup, isColumn, rfl⟩
      cases number with
      | zero =>
        obtain rfl := Option.some.inj isGroup
        obtain ⟨inside, -⟩ := List.getElem?_eq_some_iff.mp isColumn
        rwa [List.take_zero, rowWidth, Nat.zero_add, List.getElem?_append_left inside]
      | succ number =>
        rw [List.take_succ_cons, rowWidth, ← width, Nat.add_assoc,
          List.getElem?_append_right (Nat.le_add_right _ _), Nat.add_sub_cancel_left]
        exact ih.mpr ⟨number, group, offset, isGroup, isColumn, rfl⟩

end Compilation

open Compilation

/-! ## Whole queries -/

theorem Sql.Selection.columns_of_single {selection : Selection} {branch : Branch Statement}
    {page : Page} (assembles : selection.assemble = .ok (.single branch page)) :
    branch.columns = selection.columns := by
  obtain ⟨-, assembled⟩ := Selection.assembled assembles
  cases assembled
  rfl

/-- The item with this number has no name of its own and is a constant, or a name that nothing
defines, and SQL takes that for another column than the item's. -/
def Cypher.Query.ItemMisleads (query : Query) (columns : List Column)
    (projections : List Projection) (number : Nat) : Prop :=
  ∃ item lexeme, query.returnClause.items[number]? = some item ∧ Layout.columnName item = none ∧
    StandsAs query.clauseEvents item.expression lexeme ∧
      Misleads columns (rowWidth (projections.take number)) lexeme.text

section

variable {settings : Settings} {query : Query} {selection : Selection}
  {projections : List Projection}
  (selected : query.selection settings = .ok (selection, projections))

include selected

theorem Cypher.Query.selection_properNames
    (names : (query.returnClause.items.filterMap ProjectionItem.name).Nodup) :
    ProperNames selection.columns := by
  obtain ⟨-, -, -, groups, areColumns, each, -⟩ := Query.selection_groups selected
  have given : (selection.columns.filterMap Column.name).Sublist
      ((query.returnClause.items.filterMap ProjectionItem.name).filter Text.isIdentifier) := by
    rw [areColumns, List.filter_filterMap]
    exact names_flatten each
  constructor
  case identifiers =>
    intro column isOne name named
    have isName := given.subset (List.mem_filterMap.mpr ⟨column, isOne, named⟩)
    exact (List.mem_filter.mp isName).2
  case distinct => exact (names.filter _).sublist given

/-- Where a column without aggregates misleads, its item does. -/
theorem Cypher.Query.exists_itemMisleads (proper : ProperNames selection.columns) {index : Nat}
    {column : Column} (isColumn : selection.columns[index]? = some column)
    (uncounted : ¬Counts column.value) (nameless : column.name = none)
    (misleads : Misleads selection.columns index column.value.text) :
    ∃ number, query.ItemMisleads selection.columns projections number := by
  obtain ⟨-, -, -, groups, areColumns, each, widths⟩ := Query.selection_groups selected
  rw [areColumns, getElem?_flatten_iff widths] at isColumn
  obtain ⟨number, group, offset, isGroup, isOne, rfl⟩ := isColumn
  obtain ⟨inside, rfl⟩ := List.getElem?_eq_some_iff.mp isGroup
  have insideItems : number < query.returnClause.items.length := each.length_eq ▸ inside
  have becomes := each.get insideItems inside
  obtain ⟨lexeme, stands, isSingle⟩ := becomes.exists_standsAs (List.mem_of_getElem? isOne)
    uncounted (Sql.isWord_of_misleads proper.identifiers misleads)
  -- The item has no other column, so this is the one that would bear its name.
  rw [List.get_eq_getElem] at isSingle
  rw [isSingle, List.getElem?_singleton] at isOne
  obtain ⟨rfl, rfl⟩ : offset = 0 ∧ _ = column := by simpa using isOne
  exact ⟨number, _, lexeme, List.getElem?_eq_getElem insideItems, nameless, stands, misleads⟩

/-- Where an item misleads, its one column does. -/
theorem Cypher.Query.exists_misleads {number : Nat}
    (item : query.ItemMisleads selection.columns projections number) :
    ∃ index column, selection.columns[index]? = some column ∧ ¬Counts column.value ∧
      column.name = none ∧ Misleads selection.columns index column.value.text := by
  obtain ⟨item, lexeme, isItem, nameless, stands, misleads⟩ := item
  obtain ⟨-, -, -, groups, areColumns, each, widths⟩ := Query.selection_groups selected
  obtain ⟨insideItems, rfl⟩ := List.getElem?_eq_some_iff.mp isItem
  have inside : number < groups.length := each.length_eq ▸ insideItems
  have isSingle := (each.get insideItems inside).columns_of_standsAs stands
  rw [List.get_eq_getElem, List.get_eq_getElem, nameless] at isSingle
  have isColumn : selection.columns[rowWidth (projections.take number)]? =
      some ⟨[lexeme], none, none⟩ := by
    rw [areColumns, getElem?_flatten_iff widths]
    exact ⟨number, groups[number], 0, List.getElem?_eq_getElem inside, by rw [isSingle]; rfl, rfl⟩
  refine ⟨_, _, isColumn, Lexicon.not_counts_of_operand stands.isOperand, rfl, ?_⟩
  rwa [Column.value, Sql.Fragment.text_singleton]

end

/-- In an aggregating query of one `SELECT` each key denotes the column that it was made for, unless
an item misleads. -/
theorem Cypher.Query.keys_denote_iff {settings : Settings} {query : Query}
    {compiled : CompiledQuery} (compiles : query.compile settings = .ok compiled)
    (aggregating : query.IsAggregating)
    (names : (query.returnClause.items.filterMap ProjectionItem.name).Nodup)
    {branch : Branch Statement} {page : Page} (single : compiled.statement = .single branch page) :
    ∃ selection, query.selection settings = .ok (selection, compiled.projections) ∧
      selection.assemble = .ok compiled.statement ∧
      (KeysDenote branch.columns selection.grouping branch.keys ↔
        ∀ number, ¬query.ItemMisleads branch.columns compiled.projections number) := by
  obtain ⟨selection, selected, assembles⟩ := Query.compile_ok compiles
  refine ⟨selection, selected, assembles, ?_⟩
  rw [single] at assembles
  have keyed := (Selection.groupsBy assembles).branches branch (List.mem_singleton_self _)
  obtain ⟨-, apart, -⟩ := Query.selection_groups selected
  have proper := Query.selection_properNames selected names
  rw [Selection.columns_of_single assembles] at keyed ⊢
  rw [Sql.keysDenote_iff proper keyed]
  constructor
  · intro denote number item
    obtain ⟨index, column, isColumn, uncounted, nameless, misleads⟩ :=
      Query.exists_misleads selected item
    exact denote index (((apart aggregating).mem_iff index).mpr ⟨column, isColumn, uncounted⟩)
      column isColumn nameless misleads
  · intro none index isKey column isColumn nameless misleads
    obtain ⟨found, isFound, uncounted⟩ := ((apart aggregating).mem_iff index).mp isKey
    obtain rfl := Option.some.inj (isColumn.symm.trans isFound)
    obtain ⟨number, item⟩ :=
      Query.exists_itemMisleads selected proper isColumn uncounted nameless misleads
    exact none number item

/-- An aggregating query of one `SELECT` is grouped by the columns with these numbers, and SQL reads
its keys in this way. -/
def readsKeys (text : String) (grouping : List Nat) (readings : List KeyReading) : Bool :=
  (Query.parse text).toOption.any fun query =>
    decide (query.returnClause.items.filterMap ProjectionItem.name).Nodup &&
      (query.compile .standard).toOption.any fun compiled =>
        (query.selection .standard).toOption.any fun selected =>
          selected.1.aggregated && decide (selected.1.grouping = grouping) &&
            match compiled.statement with
            | .single branch _ =>
              decide (branch.keys.map (fun key => readKey branch.columns key.text) = readings)
            | _ => false

theorem exists_of_readsKeys {text : String} {grouping : List Nat} {readings : List KeyReading}
    (reads : readsKeys text grouping readings = true) :
    ∃ query compiled selection branch page, Query.parse text = .ok query ∧
      query.compile .standard = .ok compiled ∧
      query.selection .standard = .ok (selection, compiled.projections) ∧ query.IsAggregating ∧
      (query.returnClause.items.filterMap ProjectionItem.name).Nodup ∧
      compiled.statement = .single branch page ∧ (KeysDenote branch.columns selection.grouping
        branch.keys ↔ List.Forall₂ (fun index reading => reading.Denotes branch.columns index)
          grouping readings) := by
  simp only [readsKeys, Option.any_eq_true, toOption_eq_some, Bool.and_eq_true, decide_eq_true_eq]
    at reads
  obtain ⟨query, parsed, names, compiled, compiles, selected, isSelected, ⟨aggregated, rfl⟩,
    read⟩ := reads
  obtain ⟨selection, isSelection, -⟩ := Query.compile_ok compiles
  obtain rfl := Except.ok.inj (isSelected.symm.trans isSelection)
  have aggregating := (Query.selection_groups isSelection).1.mp aggregated
  split at read
  · next branch page single =>
    obtain rfl := of_decide_eq_true read
    exact ⟨query, compiled, selection, branch, page, parsed, compiles, isSelection, aggregating,
      names, single, List.forall₂_map_right_iff.symm⟩
  · contradiction

def leadingConstantText : String :=
  "MATCH (a) RETURN 1, COUNT(a)"

theorem Cypher.Query.keys_denote_iff_leadingConstantText : ∃ query compiled branch page,
    Query.parse leadingConstantText = .ok query ∧ query.compile .standard = .ok compiled ∧
      query.IsAggregating ∧ compiled.statement = .single branch page ∧
      ∀ number, ¬query.ItemMisleads branch.columns compiled.projections number := by
  have evaluated : readsKeys leadingConstantText [0] [.position 1] = true := by decide +kernel
  obtain ⟨query, compiled, selection, branch, page, parsed, compiles, selected, aggregating, names,
    single, reads⟩ := exists_of_readsKeys evaluated
  obtain ⟨other, isOther, -, denotes⟩ := query.keys_denote_iff compiles aggregating names single
  obtain ⟨rfl, -⟩ := Prod.mk.inj (Except.ok.inj (selected.symm.trans isOther))
  exact ⟨query, compiled, branch, page, parsed, compiles, aggregating, single,
    denotes.mp (reads.mpr (.cons rfl .nil))⟩

def trailingConstantText : String :=
  "MATCH (a) RETURN COUNT(a), 1"

/-- The second column is grouped by `1`, which is the position of the first one. -/
theorem Cypher.Query.not_keys_denote_trailingConstantText : ∃ query compiled selection,
    Query.parse trailingConstantText = .ok query ∧ query.compile .standard = .ok compiled ∧
      query.selection .standard = .ok (selection, compiled.projections) ∧ query.IsAggregating ∧
      (query.returnClause.items.filterMap ProjectionItem.name).Nodup ∧
      ¬ ∀ branch page, compiled.statement = .single branch page →
        KeysDenote branch.columns selection.grouping branch.keys := by
  have evaluated : readsKeys trailingConstantText [1] [.position 1] = true := by decide +kernel
  obtain ⟨query, compiled, selection, branch, page, parsed, compiles, selected, aggregating, names,
    single, reads⟩ := exists_of_readsKeys evaluated
  refine ⟨query, compiled, selection, parsed, compiles, selected, aggregating, names, ?_⟩
  intro denote
  cases reads.mp (denote branch page single) with
  | cons first => exact absurd (show 1 = 2 from first) (by decide)

end CypherSql
