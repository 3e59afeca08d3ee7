import CypherSql.Proofs.Compilation.Levels
import CypherSql.Proofs.Sql.Assembled
import CypherSql.Proofs.Sql.Merging
import CypherSql.Proofs.Sql.Names
import CypherSql.Result.Row

/-! # Columns and what they hold

What is known about the items of a result agrees with the columns of the statement: each `SELECT`
lists the columns of one item behind those of the other, as many as the kind of the item asks for.

* `Column.value` — what a column lists, as SQL.
* `Holds` — the columns of an item of some kind.
* `LaysOut` — what belongs to all items, each in its place.
* `LaysOut.of_forall₂` — so is whatever corresponds to it.
* `Statement.Lists` — every `SELECT` of a statement lists these columns.
* `Query.compile_lists` — the statement of a query lists what its items become.
-/

namespace CypherSql

open CypherSql.Cypher
open CypherSql.Compilation
open CypherSql.Sql (Aggregate Column Fragment Merged Phrase Renamed Statement)

/-! ## Columns -/

namespace Sql

/-- What a column lists, without its name. -/
def Column.value (column : Column) : Fragment :=
  match column.aggregate with
  | some aggregate => applied aggregate column.expression
  | none => column.expression

theorem text_applied (aggregate : Aggregate) (argument : Fragment) :
    (applied aggregate argument).text = aggregate.name ++ "(" ++
      (if aggregate.distinct then "DISTINCT " else "") ++ argument.text ++ ")" := by
  have distinct : Fragment.text (if aggregate.distinct then [.distinct] else []) =
      if aggregate.distinct then "DISTINCT " else "" := by
    split <;> rfl
  have opened : Fragment.text [.function aggregate.name, .opening] = aggregate.name ++ "(" := by
    rw [Fragment.text_cons]
    rfl
  have closed : Fragment.text [.closing] = ")" := rfl
  rw [applied, Fragment.text_append, Fragment.text_append, Fragment.text_append, distinct, opened,
    closed]

/-- A column is written as its value with its name behind it. -/
theorem Column.text_eq (column : Column) : column.text =
    match column.name with
    | some name => column.value.text ++ " AS " ++ name
    | none => column.value.text := by
  unfold Column.text Column.value
  cases column.aggregate with
  | none => rfl
  | some aggregate =>
    have value := (text_applied aggregate column.expression).symm
    cases column.name with
    | none => exact value
    | some name => exact congrArg (· ++ " AS " ++ name) value

end Sql

namespace Compilation

/-- The columns of one item: those of a row, or a single value, which is one expression. -/
inductive Holds : ResultKind → List Fragment → Prop where
  | node (index : Nat) : Holds .node
      (["id", "value", "type"].map fun column => [.field (.outer ⟨.node, index⟩) [column]])
  | relationship (index : Nat) : Holds .relationship
      (["id", "from_id", "to_id", "type"].map fun column =>
        [.field (.outer ⟨.relation, index⟩) [column]])
  | scalar (phrase : Phrase) : Holds .scalar [phrase.fragment]

theorem Holds.length {kind : ResultKind} {columns : List Fragment} (holds : Holds kind columns) :
    columns.length = kind.width := by
  cases holds <;> rfl

/-- What an expression compiles to becomes the columns that its kind asks for. -/
theorem columnsOf_holds {compiled : Compiled} (laid : Laid compiled)
    (single : compiled.slot = none → ∃ phrase : Phrase, phrase.fragment = compiled.sql)
    (item : ProjectionItem) :
    Holds compiled.kind ((Layout.columnsOf item compiled).1.map Column.value) := by
  cases isSlot : compiled.slot with
  | some slot =>
    obtain ⟨kind, columns, noAggregate, plain⟩ := laid.slot slot isSlot
    rw [kind]
    simp only [Layout.columnsOf, noAggregate, plain, columns]
    obtain ⟨slotKind, index⟩ := slot
    cases slotKind with
    | node => exact .node index
    | relation => exact .relationship index
  | none =>
    obtain ⟨kind, columns⟩ := laid.value isSlot
    obtain ⟨phrase, written⟩ := single isSlot
    have scalar : Holds .scalar [compiled.sql] := written ▸ .scalar phrase
    rw [kind]
    unfold Layout.columnsOf
    cases isAggregate : compiled.aggregate with
    | some aggregate =>
      rw [laid.aggregate aggregate.1 aggregate.2 isAggregate] at scalar
      exact scalar
    | none =>
      dsimp only
      split
      · exact scalar
      · rw [columns]
        exact scalar

/-- Columns that are those of the items one after the other: what `holds` says of a kind, it says
of the columns of every item of that kind. -/
structure LaysOut {α : Type} (holds : ResultKind → List α → Prop) (projections : List Projection)
    (columns : List α) : Prop where
  length : columns.length = rowWidth projections
  slice : ∀ index (inside : index < projections.length), holds projections[index].kind
    ((columns.drop (rowWidth (projections.take index))).take projections[index].kind.width)

section

variable {α β : Type} {holds : ResultKind → List α → Prop} {projections : List Projection}

theorem laysOut_nil : LaysOut holds [] [] where
  length := rfl
  slice _ inside := absurd inside (Nat.not_lt_zero _)

theorem LaysOut.cons {projection : Projection} {first columns : List α}
    (ofFirst : holds projection.kind first) (length : first.length = projection.kind.width)
    (laysOut : LaysOut holds projections columns) :
    LaysOut holds (projection :: projections) (first ++ columns) where
  length := by
    rw [List.length_append, length, laysOut.length]
    rfl
  slice
    | 0, _ => by
      have whole : (first ++ columns).take projection.kind.width = first := by
        rw [← length, List.take_left]
      exact whole.symm ▸ ofFirst
    | index + 1, inside => by
      have behind :
          (first ++ columns).drop (rowWidth ((projection :: projections).take (index + 1))) =
            columns.drop (rowWidth (projections.take index)) := by
        rw [List.take_succ_cons]
        change (first ++ columns).drop (projection.kind.width + _) = _
        rw [← length, List.drop_length_add_append]
      rw [behind]
      exact laysOut.slice index (Nat.lt_of_succ_lt_succ inside)

/-- What corresponds to the columns of an item has the same place. -/
theorem LaysOut.of_forall₂ {other : ResultKind → List β → Prop} {R : α → β → Prop}
    {columns : List α} {items : List β} (related : List.Forall₂ R columns items)
    (each : ∀ kind first second, holds kind first → List.Forall₂ R first second → other kind second)
    (laysOut : LaysOut holds projections columns) : LaysOut other projections items where
  length := related.length_eq ▸ laysOut.length
  slice index inside := each _ _ _ (laysOut.slice index inside)
    (List.forall₂_take _ (List.forall₂_drop _ related))

end

/-- What an expression compiles to is one expression, unless it is a whole slot. -/
theorem Progress.compile_single {progress after : Progress} (given : progress.bindings.Given)
    {expression : Expression} {compiled : Compiled}
    (compiles : progress.compile expression = .ok (compiled, after))
    (noSlot : compiled.slot = none) : ∃ phrase : Phrase, phrase.fragment = compiled.sql := by
  obtain ⟨state, ran, -⟩ := Progress.compile_run compiles
  obtain ⟨meaning, meanings⟩ := given.meanings
  have outcome := (compile_writes (spells_meaning rfl meanings.represents) expression
    ⟨progress.graph, progress.nextPattern⟩ rfl).1
  rw [ran] at outcome
  generalize Lexicon.write _ expression = result at outcome
  cases outcome with
  | @value _ written stands =>
    exact ⟨written.phrase, by rw [← operand_of_slot_none noSlot, stands.operand]⟩

/-- Items are laid out one after the other. -/
theorem layoutItems_laysOut {progress after : Progress}
    (given : progress.bindings.Given) {layout result : Layout} {items : List ProjectionItem}
    (laid : layoutItems progress layout items = .ok (result, after)) :
    ∃ columns projections, result.columns = layout.columns ++ columns ∧
      result.projections = layout.projections ++ projections ∧
      projections.map Projection.name = items.map Layout.itemName ∧
      LaysOut Holds projections (columns.map Column.value) := by
  induction items generalizing progress layout with
  | nil =>
    obtain ⟨rfl, rfl⟩ := Prod.mk.inj (Except.ok.inj laid)
    exact ⟨[], [], (List.append_nil _).symm, (List.append_nil _).symm, rfl, laysOut_nil⟩
  | cons item rest ih =>
    obtain ⟨⟨compiled, next⟩, compiles, laidRest⟩ := bind_eq_ok.mp laid
    have made := given.made (made_laid progress.bindings.settings)
    have holds := columnsOf_holds (Progress.compile_holds made compiles)
      (Progress.compile_single given compiles) item
    -- Compiling an item gives no name to anything.
    rw [← (Progress.compile_ok compiles).2.1] at given
    obtain ⟨columns, projections, areColumns, areProjections, names, laysOut⟩ := ih given laidRest
    refine ⟨(Layout.columnsOf item compiled).1 ++ columns,
      ⟨Layout.itemName item, compiled.kind⟩ :: projections, ?_, ?_, ?_, ?_⟩
    · rw [areColumns, ← List.append_assoc]
      rfl
    · rw [areProjections, List.append_cons]
      rfl
    · rw [List.map_cons, List.map_cons, names]
    · rw [List.map_append]
      exact laysOut.cons holds holds.length

end Compilation

/-! ## Statements -/

namespace Sql

/-- The name that a column of the outer query takes from the branches. -/
def Merged.name : Merged → String
  | key name => name
  | sum name => name
  | reapplied _ name => name

/-- Every `SELECT` of a statement lists the columns of the items, and where the rows of several are
aggregated once more, the outer one lists the names of the columns in their places. -/
structure Statement.Lists (statement : Statement) (projections : List Projection) : Prop where
  present : statement.branches ≠ []
  branches : ∀ branch ∈ statement.branches,
    LaysOut Holds projections (branch.columns.map Column.value)
  outer : ∀ columns distinct branches keys page,
    statement = .merged columns distinct branches keys page →
    ∀ branch ∈ branches,
      List.Forall₂ (fun merged column => column.name = some merged.name) columns branch.columns

theorem columns_of_mem_unionBranches {columns : List Column} {sources : List (Source Statement)}
    {keys : List Key} {clauses : List (Condition Leaf)} {alternatives : List (List Join)}
    {branch : Branch Statement}
    (isOne : branch ∈ unionBranches columns sources keys clauses alternatives) :
    branch.columns = columns := by
  obtain ⟨clause, _, isOne⟩ := List.mem_flatMap.mp isOne
  obtain ⟨joins, _, rfl⟩ := List.mem_map.mp isOne
  rfl

/-- A name does not change what a column lists. -/
theorem map_value_of_renamed {columns named : List Column}
    (renamed : List.Forall₂ Renamed columns named) :
    named.map Column.value = columns.map Column.value := by
  induction renamed with
  | nil => rfl
  | cons first _ ih =>
    rw [List.map_cons, List.map_cons, ih, Column.value, Column.value, first.aggregate,
      first.expression]

theorem mergedColumn_name {column : Column} {merged : Merged}
    (succeeds : mergedColumn column = .ok merged) : column.name = some merged.name := by
  obtain ⟨name, isName, result⟩ := bind_eq_ok.mp succeeds
  have named : column.name = some name := by
    unfold requiredName at isName
    split at isName
    · next found =>
      obtain rfl := Except.ok.inj isName
      exact found
    · contradiction
  rw [named]
  split at result
  · obtain rfl := pure_eq_ok.mp result
    split <;> rfl
  · obtain rfl := pure_eq_ok.mp result
    rfl

theorem Selection.assemble_lists {selection : Selection} {statement : Statement}
    (succeeds : selection.assemble = .ok statement) {projections : List Projection}
    (laysOut : LaysOut Holds projections (selection.columns.map Column.value)) :
    statement.Lists projections := by
  obtain ⟨_, assembled⟩ := Selection.assembled succeeds
  obtain ⟨first, rest, areParts⟩ := List.exists_cons_of_ne_nil selection.parts_ne_nil
  cases assembled with
  | single =>
    refine ⟨List.cons_ne_nil _ _, fun branch isOne => ?_, fun _ _ _ _ _ same => nomatch same⟩
    obtain rfl := List.mem_singleton.mp isOne
    exact laysOut
  | @merged sources named keys columns outerKeys _ _ areNamed _ _ areColumns =>
    have renamed := nameFrom_renamed areNamed
    have names := mapM_eq_ok.mp areColumns
    refine ⟨?_, fun branch isOne => ?_, ?_⟩
    · rw [unionBranches_eq, areParts]
      exact List.cons_ne_nil _ _
    · rw [columns_of_mem_unionBranches isOne, map_value_of_renamed renamed]
      exact laysOut
    · rintro _ _ _ _ _ ⟨⟩ branch isOne
      rw [columns_of_mem_unionBranches isOne]
      exact (names.imp fun _ _ => mergedColumn_name).flip
  | @union sources keys =>
    refine ⟨?_, fun branch isOne => ?_, fun _ _ _ _ _ same => nomatch same⟩
    · rw [unionBranches_eq, areParts]
      exact List.cons_ne_nil _ _
    · rw [columns_of_mem_unionBranches isOne]
      exact laysOut

end Sql

/-! ## Whole queries -/

/-- The statement of a query lists what its items become, in their order. -/
theorem Cypher.Query.compile_lists {settings : Settings} {query : Query} {compiled : CompiledQuery}
    (compiles : query.compile settings = .ok compiled) :
    compiled.projections.map Projection.name = query.returnClause.items.map Layout.itemName ∧
      compiled.statement.Lists compiled.projections := by
  obtain ⟨⟨selection, projections⟩, selected, compiles⟩ := bind_eq_ok.mp compiles
  obtain ⟨statement, assembled, result⟩ := bind_eq_ok.mp compiles
  obtain rfl := pure_eq_ok.mp result
  obtain ⟨progress, layout, final, page, progressed, _, laid, _, rfl, rfl⟩ :=
    Query.selection_ok selected
  obtain ⟨columns, projections, areColumns, areProjections, names, laysOut⟩ :=
    layoutItems_laysOut (progress_given progressed) laid
  have lists := Sql.Selection.assemble_lists (mapError_eq_ok.mp assembled)
    (by rw [areColumns]; exact laysOut)
  rw [areProjections]
  exact ⟨names, lists⟩

end CypherSql
