import CypherSql.Compilation.Basic
import CypherSql.Proofs.Compilation.Expressions

/-! # What clauses do to the progress of a query

Patterns of `MATCH` add slots.  Nothing else does: predicates, `WITH` and `RETURN` leave
the graph as it is up to the record of who mentions a slot.

* `Progress.compile_ok` — all that compiling an expression can change.
* `Progress.filter_ok`, `Progress.addItem_ok` — what one clause or item changes.
* `Query.selection_ok` — the parts that the description of an SQL query is made of.
-/

namespace CypherSql

open CypherSql.Cypher

namespace Compilation

/-! ## Expressions and clauses -/

/-- Compiling an expression of a clause is compiling it in the state of the query so far. -/
theorem Progress.compile_run {progress after : Progress} {expression : Expression}
    {compiled : Compiled} (compiles : progress.compile expression = .ok (compiled, after)) :
    ∃ state, (Compilation.compile progress.bindings expression).run.run
        ⟨progress.graph, progress.nextPattern⟩ = (.ok compiled, state) ∧
      after = { progress with graph := state.graph, nextPattern := state.nextPattern } := by
  unfold Progress.compile at compiles
  dsimp only at compiles
  generalize (Compilation.compile progress.bindings expression).run.run
    ⟨progress.graph, progress.nextPattern⟩ = outcome at compiles ⊢
  obtain ⟨_ | value, state⟩ := outcome
  · contradiction
  · obtain ⟨rfl, rfl⟩ := Prod.mk.inj (Except.ok.inj compiles)
    exact ⟨state, rfl, rfl⟩

/-- An expression leaves everything but scopes and the number of the next pattern. -/
theorem Progress.compile_ok {progress after : Progress} {expression : Expression}
    {compiled : Compiled} (compiles : progress.compile expression = .ok (compiled, after)) :
    after.graph.unscoped = progress.graph.unscoped ∧ after.bindings = progress.bindings ∧
      after.predicates = progress.predicates := by
  obtain ⟨state, ran, rfl⟩ := Progress.compile_run compiles
  have same := (compile_sameSlots progress.bindings expression
    ⟨progress.graph, progress.nextPattern⟩).1
  rw [ran] at same
  exact ⟨same, rfl, rfl⟩

def SameGraph (before after : Progress) : Prop :=
  after.graph.unscoped = before.graph.unscoped

theorem SameGraph.refl (progress : Progress) : SameGraph progress progress := rfl

theorem SameGraph.trans (first second third : Progress) (left : SameGraph first second)
    (right : SameGraph second third) : SameGraph first third :=
  Eq.trans right left

theorem Progress.filter_ok {progress after : Progress} {predicate : Option Expression}
    (filtered : progress.filter predicate = .ok after) :
    SameGraph progress after ∧ after.bindings = progress.bindings := by
  cases predicate with
  | none =>
    obtain rfl := Except.ok.inj filtered
    exact ⟨SameGraph.refl progress, rfl⟩
  | some predicate =>
    obtain ⟨⟨compiled, next⟩, compiles, result⟩ := bind_eq_ok.mp filtered
    obtain ⟨same, sameBindings, -⟩ := Progress.compile_ok compiles
    obtain rfl := pure_eq_ok.mp result
    exact ⟨same, sameBindings⟩

theorem Progress.filterPassed_ok {progress after : Progress} {predicate : Option Expression}
    (filtered : progress.filterPassed predicate = .ok after) :
    SameGraph progress after ∧ after.bindings = progress.bindings := by
  cases predicate with
  | none =>
    obtain rfl := Except.ok.inj filtered
    exact ⟨SameGraph.refl progress, rfl⟩
  | some predicate =>
    obtain ⟨⟨compiled, next⟩, compiles, result⟩ := bind_eq_ok.mp filtered
    obtain ⟨same, sameBindings, -⟩ := Progress.compile_ok compiles
    dsimp only at result
    split at result
    · contradiction
    · obtain rfl := pure_eq_ok.mp result
      exact ⟨same, sameBindings⟩

/-- An item of `WITH` gives a name to what its expression compiles to, or names nothing. -/
theorem Progress.addItem_ok {progress after : Progress} {item : ProjectionItem}
    (added : progress.addItem item = .ok after) :
    ∃ compiled next, progress.compile item.expression = .ok (compiled, next) ∧
      SameGraph progress after ∧
      (after.bindings = progress.bindings ∨
        ∃ name, after.bindings = progress.bindings.bind name compiled) := by
  obtain ⟨⟨compiled, next⟩, compiles, result⟩ := bind_eq_ok.mp added
  obtain ⟨same, sameBindings, -⟩ := Progress.compile_ok compiles
  refine ⟨compiled, next, compiles, ?_⟩
  dsimp only at result
  split at result
  · next name _ =>
    obtain rfl := pure_eq_ok.mp result
    exact ⟨same, .inr ⟨name, by rw [sameBindings]⟩⟩
  · split at result
    · obtain rfl := pure_eq_ok.mp result
      exact ⟨same, .inl sameBindings⟩
    · contradiction

theorem Progress.addWith_sameGraph {progress after : Progress} {clause : WithClause}
    (added : progress.addWith clause = .ok after) : SameGraph progress after := by
  obtain ⟨next, items, filtered⟩ := bind_eq_ok.mp added
  have addsNone : ∀ before item later, Progress.addItem before item = .ok later →
      SameGraph before later := by
    intro before item later added
    obtain ⟨_, _, _, same, _⟩ := Progress.addItem_ok added
    exact same
  have itemsSame : SameGraph progress next :=
    foldlM_keeps SameGraph.refl SameGraph.trans addsNone items
  exact itemsSame.trans _ _ _ (Progress.filterPassed_ok filtered).1

/-- `RETURN` leaves the graph up to scopes, and the predicates. -/
theorem layoutItems_ok {progress after : Progress} {layout result : Layout}
    {items : List ProjectionItem} (laid : layoutItems progress layout items = .ok (result, after)) :
    SameGraph progress after ∧ after.predicates = progress.predicates := by
  induction items generalizing progress layout with
  | nil =>
    obtain ⟨rfl, rfl⟩ := Prod.mk.inj (Except.ok.inj laid)
    exact ⟨SameGraph.refl progress, rfl⟩
  | cons item rest ih =>
    obtain ⟨⟨compiled, next⟩, compiles, laidRest⟩ := bind_eq_ok.mp laid
    obtain ⟨same, _, samePredicates⟩ := Progress.compile_ok compiles
    obtain ⟨restSame, restPredicates⟩ := ih laidRest
    exact ⟨SameGraph.trans _ _ _ same restSame, restPredicates.trans samePredicates⟩

end Compilation

open Compilation

/-! ## Whole queries -/

/-- The clauses of a query take effect, its labels are known, its items are laid out and its
page is a number of rows.  The filter speaks of the graph that comes out of that. -/
theorem Cypher.Query.selection_ok {settings : Settings} {query : Query}
    {selection : Sql.Selection} {projections : List Projection}
    (selected : query.selection settings = .ok (selection, projections)) :
    ∃ progress layout final page,
      query.progress settings = .ok progress ∧
        requireKnownLabels settings progress.graph = .ok () ∧
        layoutItems progress .empty query.returnClause.items = .ok (layout, final) ∧
        pageOf query.returnClause = .ok page ∧
        selection =
          { distinct := query.returnClause.distinct
            columns := layout.columns
            sources := sourcesOf settings final.graph
            joins := []
            condition := filterOf settings final.graph final.predicates
            grouping := layout.grouping
            aggregated := layout.aggregated
            page } ∧
        projections = layout.projections := by
  obtain ⟨progress, progressed, selected⟩ := bind_eq_ok.mp selected
  obtain ⟨known, isKnown, selected⟩ := bind_eq_ok.mp selected
  obtain ⟨⟨layout, final⟩, laid, selected⟩ := bind_eq_ok.mp selected
  obtain ⟨page, paged, selected⟩ := bind_eq_ok.mp selected
  obtain ⟨rfl, rfl⟩ := Prod.mk.inj (pure_eq_ok.mp selected)
  exact ⟨progress, layout, final, page, progressed, mapError_eq_ok.mp isKnown, laid, paged, rfl, rfl⟩

/-- A query compiles to its selection, assembled. -/
theorem Cypher.Query.compile_ok {settings : Settings} {query : Query} {compiled : CompiledQuery}
    (compiles : query.compile settings = .ok compiled) :
    ∃ selection, query.selection settings = .ok (selection, compiled.projections) ∧
      selection.assemble = .ok compiled.statement := by
  obtain ⟨⟨selection, projections⟩, selected, compiles⟩ := bind_eq_ok.mp compiles
  obtain ⟨statement, assembles, result⟩ := bind_eq_ok.mp compiles
  obtain rfl := pure_eq_ok.mp result
  exact ⟨selection, selected, mapError_eq_ok.mp assembles⟩

end CypherSql
