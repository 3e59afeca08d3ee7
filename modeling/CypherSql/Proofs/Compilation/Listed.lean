import CypherSql.Proofs.Compilation.Plain
import CypherSql.Proofs.Result.Partition

/-! # What the SQL of a query lists

A row of the result is decoded by what is known about the items of the query, and the rows come from
what a database reads in its SQL.  Each `SELECT` that is found there lists the columns of one item
behind those of the other.

* `ListsKind` — the columns of an item of some kind, as they are read.
* `ListsItems` — every `SELECT` lists the columns of all items, each in its place.
* `Reads.listsItems` — the columns of a statement are found in what is read in its text.
* `Query.compile_listsItems` — the SQL of a query lists what its items ask for.
-/

namespace CypherSql

open CypherSql.Compilation
open CypherSql.Cypher
open CypherSql.Graph (Slot)
open CypherSql.Sql (Alias Branch Column Fragment IsName Merged Scans Statement Token branchRows
  fieldTokens hasComment itemName? itemValue listed outerRows scans_field selects tokens)
open CypherSql.Text (isIdentifier)

/-! ## What is listed -/

/-- The columns of an item: those of a row of some slot, or a single value. -/
inductive ListsKind : ResultKind → List (List Token) → Prop where
  | node (index : Nat) : ListsKind .node
      (["id", "value", "type"].map fun column =>
        [.word ("a" ++ toString index), .mark '.', .word column])
  | relationship (index : Nat) : ListsKind .relationship
      (["id", "from_id", "to_id", "type"].map fun column =>
        [.word ("r" ++ toString index), .mark '.', .word column])
  | scalar (value : List Token) (present : value ≠ []) : ListsKind .scalar [value]

/-- A column of the outer query is a column of the branches or an aggregate of one. -/
inductive TakesColumn (name : String) : List Token → Prop where
  | same : TakesColumn name [.word name]
  | aggregate (function : String) : TakesColumn name [.word function, .group [.word name]]

/-- Every `SELECT` of a row of tokens lists the columns of the items.  An outer one takes each of them
from the column in the same place, by its name. -/
structure ListsItems (row : List Token) (projections : List Projection) : Prop where
  present : branchRows row ≠ []
  branches : ∀ select ∈ branchRows row,
    LaysOut ListsKind projections ((listed select).map itemValue)
  outer : ∀ outer ∈ outerRows row, ∀ select ∈ branchRows row,
    List.Forall₂ (fun item column => ∃ name, itemName? item = some name ∧ TakesColumn name column)
      (listed select) (listed outer)

section

variable {row : List Token} {projections : List Projection}

/-- All `SELECT`s have as many columns as the items ask for. -/
theorem ListsItems.length (lists : ListsItems row projections) :
    ∀ select ∈ selects row, (listed select).length = rowWidth projections := by
  have ofBranch : ∀ select ∈ branchRows row, (listed select).length = rowWidth projections := by
    intro select isBranch
    simpa using (lists.branches select isBranch).length
  refine List.forall_mem_append.mpr ⟨fun outer isOuter => ?_, ofBranch⟩
  obtain ⟨select, isBranch⟩ := List.exists_mem_of_ne_nil _ lists.present
  exact (lists.outer outer isOuter select isBranch).length_eq ▸ ofBranch select isBranch

end

/-! ## What is read -/

namespace Sql

/-- A value and what its text is read as. -/
def ReadsAs (value : Fragment) (item : List Token) : Prop :=
  Scans .start .finish value.text item ∧ item ≠ []

/-- The columns of a row of a slot are read as such. -/
theorem eq_of_readsAs {slot : Slot} {names : List String} {items : List (List Token)}
    (areNames : ∀ name ∈ names, isIdentifier name = true)
    (read : List.Forall₂ ReadsAs (names.map fun name => [.field (.outer slot) [name]]) items) :
    items = names.map fun name => fieldTokens (.outer slot) [name] := by
  rw [List.forall₂_map_left_iff] at read
  induction read with
  | nil => rfl
  | @cons name item names items isItem _ ih =>
    obtain ⟨isName, others⟩ := List.forall_mem_cons.mp areNames
    have scans : Scans .start .finish (Fragment.text [.field (.outer slot) [name]])
        (fieldTokens (.outer slot) [name]) := by
      rw [Fragment.text_singleton]
      exact scans_field rfl (List.cons_ne_nil _ _) (List.forall_mem_singleton.mpr isName)
    rw [isItem.1.unique scans, ih others, List.map_cons]

theorem listsKind_of_holds {kind : ResultKind} {columns : List Fragment} {items : List (List Token)}
    (holds : Holds kind columns) (read : List.Forall₂ ReadsAs columns items) : ListsKind kind items := by
  cases holds with
  | node index =>
    rw [eq_of_readsAs (by decide) read]
    exact .node index
  | relationship index =>
    rw [eq_of_readsAs (by decide) read]
    exact .relationship index
  | scalar phrase =>
    obtain ⟨item, others, isItem, none, rfl⟩ := List.forall₂_cons_left_iff.mp read
    obtain rfl := List.forall₂_nil_left_iff.mp none
    exact .scalar item isItem.2

theorem Merged.takesColumn (column : Merged) : TakesColumn column.name column.tokens := by
  cases column with
  | key name => exact .same
  | sum name => exact .aggregate "SUM"
  | reapplied function name => exact .aggregate function

variable {known : List String} {statement : Statement} {row : List Token}
  {projections : List Projection}

theorem forall₂_trans {α β γ : Type} {R : α → β → Prop} {S : β → γ → Prop} {T : α → γ → Prop}
    (compose : ∀ x y z, R x y → S y z → T x z) {xs : List α} {ys : List β} {zs : List γ}
    (first : List.Forall₂ R xs ys) (second : List.Forall₂ S ys zs) : List.Forall₂ T xs zs := by
  induction first generalizing zs with
  | nil =>
    obtain rfl := List.forall₂_nil_left_iff.mp second
    exact .nil
  | cons related _ ih =>
    obtain ⟨z, rest, relatedZ, relatedRest, rfl⟩ := List.forall₂_cons_left_iff.mp second
    exact .cons (compose _ _ _ related relatedZ) (ih relatedRest)

/-- An outer `SELECT` that is read belongs to the outer query of a statement. -/
theorem Statement.Reads.merged (reads : statement.Reads known row) {outer : List Token}
    (isOne : outer ∈ outerRows row) : ∃ columns distinct branches keys page,
      statement = .merged columns distinct branches keys page ∧
        listed outer = columns.map Merged.tokens := by
  obtain ⟨index, there⟩ := List.getElem?_of_mem isOne
  obtain ⟨columns, isOuter, areListed⟩ := forall₂_at reads.outer.flip there
  have isOuter := List.mem_of_getElem? isOuter
  cases statement with
  | single | union => contradiction
  | merged merged distinct branches keys page =>
    obtain rfl := List.mem_singleton.mp isOuter
    exact ⟨columns, distinct, branches, keys, page, rfl, areListed⟩

/-- A `SELECT` that is read belongs to a branch. -/
theorem Statement.Reads.branch (reads : statement.Reads known row) {select : List Token}
    (isOne : select ∈ branchRows row) : ∃ branch ∈ statement.branches, branch.Reads known select := by
  obtain ⟨index, there⟩ := List.getElem?_of_mem isOne
  obtain ⟨branch, isBranch, readsBranch⟩ := forall₂_at reads.branches.flip there
  exact ⟨branch, List.mem_of_getElem? isBranch, readsBranch⟩

/-- The columns of a statement are found in what is read in its text. -/
theorem Statement.Reads.listsItems (reads : statement.Reads known row)
    (lists : statement.Lists projections) : ListsItems row projections where
  present none := by
    have length := reads.branches.length_eq
    rw [none] at length
    exact lists.present (List.length_eq_zero_iff.mp length)
  branches select isSelect := by
    obtain ⟨branch, isBranch, readsBranch⟩ := reads.branch isSelect
    refine (lists.branches branch isBranch).of_forall₂ (R := ReadsAs) ?_
      fun kind first second holds read => listsKind_of_holds holds read
    rw [List.forall₂_map_left_iff, List.forall₂_map_right_iff]
    exact readsBranch.items.imp fun _ _ readsColumn => ⟨readsColumn.value, readsColumn.present⟩
  outer outer isOuter select isSelect := by
    obtain ⟨branch, isBranch, readsBranch⟩ := reads.branch isSelect
    obtain ⟨columns, distinct, branches, keys, page, rfl, areListed⟩ := reads.merged isOuter
    have names := lists.outer columns distinct branches keys page rfl branch isBranch
    rw [areListed, List.forall₂_map_right_iff]
    refine (forall₂_trans (fun merged column item named readsColumn => ?_) names
      readsBranch.items).flip
    exact ⟨merged.name, readsColumn.name.trans named, merged.takesColumn⟩

end Sql

/-! ## Whole queries -/

/-- A clear query becomes SQL in which every `SELECT` lists the columns of its items.  So a row with a
cell for every column that is read there is put together. -/
theorem Cypher.Query.compile_listsItems {settings : Settings} {query : Query}
    {compiled : CompiledQuery} (compiles : query.compile settings = .ok compiled)
    (clear : query.IsClear settings compiled) :
    compiled.projections.map Projection.name = query.returnClause.items.map Layout.itemName ∧
      ∃ row, tokens compiled.sql = some row ∧ ListsItems row compiled.projections ∧
        ∀ select ∈ selects row,
          (listed select).length = rowWidth compiled.projections ∧
            ∀ cells : List Json, cells.length = (listed select).length → ∀ expected found,
              rowValues compiled.projections cells ≠ .error (.shape expected found) := by
  obtain ⟨names, lists⟩ := Query.compile_lists compiles
  obtain ⟨row, isRead, reads⟩ := Query.compile_reads compiles clear
  have listsItems := reads.listsItems lists
  refine ⟨names, row, isRead, listsItems, fun select isSelect => ?_⟩
  have length := listsItems.length select isSelect
  exact ⟨length, fun cells sameLength => rowValues_ne_shape (sameLength.trans length)⟩

theorem isName_table_standard (kind : Graph.SlotKind) : IsName (Settings.standard.table kind) := by
  cases kind <;> exact ⟨by decide, by decide⟩

def countedTypesText : String :=
  "MATCH (a:ip:domain) RETURN a, COUNT(a)"

def countedTypesSql : String :=
  "SELECT a0_id, a0_value, a0_type, SUM(star_COUNT)\nFROM\n" ++
    "((SELECT a0.id AS a0_id, a0.value AS a0_value, a0.type AS a0_type, COUNT(*) AS star_COUNT\n" ++
    "FROM (assets a0)\nWHERE a0.type = 'ip'\nGROUP BY a0_id, a0_value, a0_type)\nUNION ALL\n" ++
    "(SELECT a0.id AS a0_id, a0.value AS a0_value, a0.type AS a0_type, COUNT(*) AS star_COUNT\n" ++
    "FROM (assets a0)\nWHERE a0.type = 'domain'\nGROUP BY a0_id, a0_value, a0_type)) AS x\n" ++
    "GROUP BY x.a0_id, x.a0_value, x.a0_type"

theorem hasComment_countedTypesSql : hasComment countedTypesSql = false := by
  unfold countedTypesSql hasComment
  simp only [String.toList_append]
  decide +kernel

/-- A node and a count, in a statement that aggregates two branches once more. -/
theorem Cypher.Query.compile_listsItems_countedTypesText : ∃ query compiled row,
    Query.parse countedTypesText = .ok query ∧ query.compile .standard = .ok compiled ∧
      tokens compiled.sql = some row ∧ ListsItems row compiled.projections ∧
      ∀ select ∈ selects row, (listed select).length = 4 := by
  have evaluated : ((Query.parse countedTypesText).toOption.any fun query =>
      query.isPlain && query.isUnreserved &&
        (query.compile .standard).toOption.any fun compiled =>
          compiled.sql == countedTypesSql && rowWidth compiled.projections == 4) = true := by
    decide +kernel
  simp only [Option.any_eq_true, toOption_eq_some, Bool.and_eq_true, beq_iff_eq] at evaluated
  obtain ⟨query, parsed, ⟨plain, unreserved⟩, compiled, compiles, isSql, width⟩ := evaluated
  have uncommented : hasComment compiled.sql = false := isSql ▸ hasComment_countedTypesSql
  obtain ⟨-, row, isRead, lists, each⟩ :=
    query.compile_listsItems compiles ⟨plain, unreserved, isName_table_standard, uncommented⟩
  refine ⟨query, compiled, row, parsed, compiles, isRead, lists, fun select isSelect => ?_⟩
  exact (each select isSelect).1.trans width

/-- What is not plain may list more or less than the items ask for: a name or a text that ends what it
stands in, a keyword, a comment, and a table that is no name. -/
def unclearQueries : List (Settings × String) :=
  [(.standard, "MATCH (a) RETURN `x, y`"),
    (.standard, "MATCH (a) RETURN \"x', 'y\""),
    (.standard, "MATCH (a:`ip' UNION SELECT 1, 'x`) RETURN a"),
    (.standard, "MATCH (a) RETURN `FROM`, a.value"),
    (.standard, "MATCH (a) RETURN a.value AS `UNION`"),
    (.standard, "MATCH (a) WITH -a.id AS x RETURN -x"),
    ({ Settings.standard with assetsTable := "select" }, "MATCH (a) RETURN a"),
    ({ Settings.standard with assetsTable := "assets a) UNION SELECT 1 FROM (assets" },
      "MATCH (a) RETURN a")]

/-- A query whose SQL lists something else, or is not read at all. -/
def Misleads (settings : Settings) (text : String) : Prop :=
  ∃ query compiled, Query.parse text = .ok query ∧ query.compile settings = .ok compiled ∧
    ¬∃ row, tokens compiled.sql = some row ∧ ListsItems row compiled.projections

/-- So does a name with a comma in it, and a row with two cells does not fit the one item. -/
theorem Cypher.Query.not_listsItems_unclearQueries :
    (∀ unclear ∈ unclearQueries, Misleads unclear.1 unclear.2) ∧
      ∃ query compiled row select, Query.parse "MATCH (a) RETURN `x, y`" = .ok query ∧
        query.compile .standard = .ok compiled ∧ tokens compiled.sql = some row ∧
        select ∈ selects row ∧ ∀ cells : List Json, cells.length = (listed select).length →
          rowValues compiled.projections cells = .error (.shape 1 2) := by
  constructor
  · have evaluated : (unclearQueries.all fun unclear =>
        (Query.parse unclear.2).toOption.any fun query =>
          (query.compile unclear.1).toOption.any fun compiled =>
            (tokens compiled.sql).all fun row => (selects row).any fun select =>
              (listed select).length != rowWidth compiled.projections) = true := by
      decide +kernel
    intro unclear isOne
    have found := List.all_eq_true.mp evaluated unclear isOne
    simp only [Option.any_eq_true, toOption_eq_some, Option.all_eq_true, List.any_eq_true,
      bne_iff_ne] at found
    obtain ⟨query, parsed, compiled, compiles, each⟩ := found
    refine ⟨query, compiled, parsed, compiles, ?_⟩
    rintro ⟨row, isRead, lists⟩
    obtain ⟨select, isSelect, other⟩ := each row isRead
    exact other (lists.length select isSelect)
  · have evaluated : ((Query.parse "MATCH (a) RETURN `x, y`").toOption.any fun query =>
        (query.compile .standard).toOption.any fun compiled =>
          rowWidth compiled.projections == 1 && (tokens compiled.sql).any fun row =>
            (selects row).any fun select => (listed select).length == 2) = true := by
      decide +kernel
    simp only [Option.any_eq_true, toOption_eq_some, Bool.and_eq_true, beq_iff_eq, List.any_eq_true]
      at evaluated
    obtain ⟨query, parsed, compiled, compiles, width, row, isRead, select, isSelect, length⟩ := evaluated
    refine ⟨query, compiled, row, select, parsed, compiles, isRead, isSelect, fun cells sameLength => ?_⟩
    have other : cells.length ≠ rowWidth compiled.projections := by omega
    rw [rowValues_of_length_ne other, sameLength, width, length]

end CypherSql
