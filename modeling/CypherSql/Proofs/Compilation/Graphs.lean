import CypherSql.Proofs.Compilation.Progress
import CypherSql.Proofs.Graph.Calls
import CypherSql.Proofs.Graph.Unscoped

/-! # The graphs of queries

The patterns of a query mention their slots one after the other, and its expressions mention
slots again.  So the graph that the filter of a query speaks of is as well formed as any graph
that calls bring about, and whatever is looked up in it is there.

* `bindPattern_wellFormed`, `Progress.addMatch_wellFormed` — what patterns and clauses keep.
* `filterOf_eq_of_unscoped` and so on — what is made of a graph does not show who mentions a slot.
* `Query.selection_wellFormed` — the graph of a query is well formed.
* `Graph.run_wellFormed` — the same for every sequence of calls, and what later calls leave.
-/

namespace CypherSql

open CypherSql.Cypher

namespace Compilation

open CypherSql.Graph (WellFormed change_of_mentionNode change_of_mentionRelation)

/-! ## Patterns -/

theorem bindHops_wellFormed {graph after : Graph} (wellFormed : graph.WellFormed) {previous : Nat}
    {hops : List Hop} (bound : bindHops graph previous hops = .ok after) : after.WellFormed := by
  induction hops generalizing graph previous with
  | nil =>
    obtain rfl := Except.ok.inj bound
    exact wellFormed
  | cons hop rest ih =>
    obtain ⟨⟨next, withNode⟩, nodeMentioned, bound⟩ := bind_eq_ok.mp bound
    obtain ⟨⟨relation, withRelation⟩, relationMentioned, bound⟩ := bind_eq_ok.mp bound
    have nodeWellFormed := wellFormed.change (change_of_mentionNode nodeMentioned)
    exact ih (nodeWellFormed.change (change_of_mentionRelation relationMentioned)) bound

theorem bindPattern_wellFormed {graph after : Graph} (wellFormed : graph.WellFormed)
    {pattern : Pattern} (bound : bindPattern graph pattern = .ok after) : after.WellFormed := by
  obtain ⟨⟨start, withStart⟩, mentioned, bound⟩ := bind_eq_ok.mp bound
  exact bindHops_wellFormed (wellFormed.change (change_of_mentionNode mentioned)) bound

theorem bindPatterns_wellFormed {graph after : Graph} (wellFormed : graph.WellFormed)
    {patterns : List Pattern} (bound : bindPatterns graph patterns = .ok after) :
    after.WellFormed := by
  have keeps : graph.WellFormed → after.WellFormed :=
    foldlM_keeps (R := fun before later => before.WellFormed → later.WellFormed)
      (fun _ => id) (fun _ _ _ first second => second ∘ first)
      (fun _ _ _ stepped before => bindPattern_wellFormed before stepped) bound
  exact keeps wellFormed

/-! ## Clauses -/

theorem Progress.addMatch_wellFormed {progress after : Progress}
    (wellFormed : progress.graph.WellFormed) {clause : MatchClause}
    (added : progress.addMatch clause = .ok after) : after.graph.WellFormed := by
  obtain ⟨graph, bound, filtered⟩ := bind_eq_ok.mp added
  have patterns := bindPatterns_wellFormed wellFormed (mapError_eq_ok.mp bound)
  exact patterns.of_unscoped (Progress.filter_ok filtered).1

theorem progress_wellFormed {settings : Settings} {query : Query} {progress : Progress}
    (progressed : query.progress settings = .ok progress) : progress.graph.WellFormed := by
  obtain ⟨matched, isMatched, passed⟩ := bind_eq_ok.mp progressed
  have keeps : (Progress.start settings).graph.WellFormed → matched.graph.WellFormed :=
    foldlM_keeps (R := fun before later => before.graph.WellFormed → later.graph.WellFormed)
      (fun _ => id) (fun _ _ _ first second => second ∘ first)
      (fun _ _ _ stepped before => Progress.addMatch_wellFormed before stepped) isMatched
  have same : SameGraph matched progress :=
    foldlM_keeps SameGraph.refl SameGraph.trans (fun _ _ _ => Progress.addWith_sameGraph) passed
  exact (keeps Graph.wellFormed_empty).of_unscoped same

/-! ## What is made of a graph -/

section

variable {earlier later : Graph} (same : later.unscoped = earlier.unscoped) (settings : Settings)

include same

theorem requireKnownLabels_eq_of_unscoped :
    requireKnownLabels settings later = requireKnownLabels settings earlier := by
  have nodes := Graph.map_nodes_eq_of_unscoped same (f := Graph.Node.labels) fun _ => rfl
  have relations :=
    Graph.map_relations_eq_of_unscoped same (f := Graph.Relation.labels) fun _ => rfl
  simp only [requireKnownLabels, List.flatMap_def, nodes, relations]

theorem sourcesOf_eq_of_unscoped : sourcesOf settings later = sourcesOf settings earlier := by
  unfold sourcesOf
  rw [Graph.map_nodes_eq_of_unscoped same fun _ => rfl,
    Graph.map_relations_eq_of_unscoped same fun _ => rfl]

theorem effectiveDirection_eq_of_unscoped (predicates : Predicates) (relation : Graph.Relation) :
    effectiveDirection settings later predicates relation =
      effectiveDirection settings earlier predicates relation := by
  have ends : ∀ index, unconstrained later predicates index =
      unconstrained earlier predicates index := by
    intro index
    rw [unconstrained, unconstrained, Graph.labels_eq_of_unscoped same]
  rw [effectiveDirection, effectiveDirection, ends, ends,
    Graph.length_relations_eq_of_unscoped same]

theorem filterOf_eq_of_unscoped (predicates : Predicates) :
    filterOf settings later predicates = filterOf settings earlier predicates := by
  have nodes := Graph.map_nodes_eq_of_unscoped same
    (f := fun node => (labelCondition (nodeRow node.id) node.labels).toList) fun _ => rfl
  have relations := Graph.map_relations_eq_of_unscoped same
    (f := fun relation => (labelCondition (relationRow relation.id) relation.labels).toList)
    fun _ => rfl
  have ends : endConditions settings later predicates =
      endConditions settings earlier predicates := by
    unfold endConditions
    simp only [effectiveDirection_eq_of_unscoped same]
    exact Graph.map_relations_eq_of_unscoped same fun _ => rfl
  simp only [filterOf, labelConditions, List.flatMap_def, nodes, relations, ends]

end

end Compilation

open Compilation

/-! ## Whole queries -/

/-- The filter and the sources of a query are those of a well-formed graph. -/
theorem Cypher.Query.selection_wellFormed {settings : Settings} {query : Query}
    {selection : Sql.Selection} {projections : List Projection}
    (selected : query.selection settings = .ok (selection, projections)) :
    ∃ graph predicates, selection.condition = filterOf settings graph predicates ∧
      selection.sources = sourcesOf settings graph ∧ graph.WellFormed := by
  obtain ⟨progress, layout, final, page, progressed, _, laid, _, rfl, rfl⟩ :=
    Query.selection_ok selected
  have same := (layoutItems_ok laid).1
  exact ⟨final.graph, final.predicates, rfl, rfl, (progress_wellFormed progressed).of_unscoped same⟩

/-- Whatever calls are made, in whatever order and with whatever arguments, the graph is well
formed, and further calls leave its slots, their ends and the meaning of names as they are.  A
name that is looked up has a slot that is there, and the ends of the relations in the filter of
a query are nodes of its graph. -/
theorem Graph.run_wellFormed :
    (∀ calls more : List Call,
      (empty.run calls).WellFormed ∧ (empty.run calls).Extends (empty.run (calls ++ more)) ∧
        ∀ name slot, (empty.run calls).slot? name = some slot →
          slot.index < (empty.run calls).size slot.kind) ∧
      ∀ (settings : Settings) (query : Query) (selection : Sql.Selection)
          (projections : List Projection), query.selection settings = .ok (selection, projections) →
        ∃ graph predicates, selection.condition = filterOf settings graph predicates ∧
          selection.sources = sourcesOf settings graph ∧ graph.WellFormed := by
  constructor
  · intro calls more
    have wellFormed := wellFormed_empty.run calls
    refine ⟨wellFormed, ?_, fun name slot => wellFormed.index_lt⟩
    rw [Graph.run, Graph.run, List.foldl_append]
    exact Extends.run _ more
  · intro settings query selection projections
    exact Query.selection_wellFormed

/-- A node, a relation from it to itself, a relation to nowhere, the node mentioned as a
relation, and the node with another label. -/
def Graph.mixedCalls : List Graph.Call :=
  [.node ["ip"] (some "a") .clause, .relation [] (some "r") 0 0 .right .clause,
    .relation [] none 0 7 .left .clause, .again "a" .relation [] (.test 0),
    .node ["domain"] (some "a") .clause]

theorem Graph.run_wellFormed_mixedCalls :
    ((empty.run mixedCalls).WellFormed ∧
      (empty.run mixedCalls).Extends (empty.run (mixedCalls ++ mixedCalls)) ∧
        (empty.run mixedCalls).slot? "r" = some ⟨.relation, 0⟩ ∧
          0 < (empty.run mixedCalls).size .relation) ∧
      ∃ query selection projections,
        Query.parse "MATCH (a:ip)-[r]->(a) RETURN r" = .ok query ∧
          query.selection .standard = .ok (selection, projections) ∧
          ∃ graph predicates, selection.condition = filterOf .standard graph predicates ∧
            selection.sources = sourcesOf .standard graph ∧ graph.WellFormed := by
  obtain ⟨wellFormed, extends', there⟩ := run_wellFormed.1 mixedCalls mixedCalls
  have isSlot : (empty.run mixedCalls).slot? "r" = some ⟨.relation, 0⟩ := by decide
  refine ⟨⟨wellFormed, extends', isSlot, there "r" ⟨.relation, 0⟩ isSlot⟩, ?_⟩
  have evaluated : ((Query.parse "MATCH (a:ip)-[r]->(a) RETURN r").toOption.any fun query =>
      (query.selection .standard).toOption.isSome) = true := by
    decide +kernel
  simp only [Option.any_eq_true, Option.isSome_iff_exists, toOption_eq_some] at evaluated
  obtain ⟨query, parsed, ⟨selection, projections⟩, selected⟩ := evaluated
  exact ⟨query, selection, projections, parsed, selected,
    run_wellFormed.2 .standard query selection projections selected⟩

end CypherSql
