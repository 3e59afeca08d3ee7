import CypherSql.Proofs.Compilation.Moving
import CypherSql.Proofs.Compilation.Orientation
import CypherSql.Proofs.Condition.Expansion
import CypherSql.Proofs.Sql.Merging

/-! # How many branches a statement has

A branch stands for a choice of one label for each labelled slot and of one way for each relation
that is matched both ways.  A predicate is one leaf of the filter, whatever is in it, so that it
leaves nothing to choose.

* `choices` — the number of choices that the patterns of a query leave.
* `ways_filterOf` — a filter has as many clauses.
* `Selection.length_assembled`, `Selection.isUnion_eq_false_iff` — the statement of a filter.
* `Query.length_branches` — a query has a branch for every choice.
-/

namespace CypherSql

open CypherSql.Cypher

/-! ## Branches and clauses -/

namespace Sql

variable {selection : Selection} {statement : Statement}

theorem length_unionBranches (columns : List Column) (sources : List (Source Statement))
    (keys : List Key) (clauses : List (Condition Leaf)) :
    (unionBranches columns sources keys clauses (joinAlternatives [])).length = clauses.length := by
  simp [unionBranches, joinAlternatives]

/-- Without joins there is a branch for every clause. -/
theorem Selection.length_assembled (succeeds : selection.assemble = .ok statement)
    (unjoined : selection.joins = []) :
    statement.branches.length = (branchConditions selection.condition).length := by
  obtain ⟨_, assembled⟩ := Selection.assembled succeeds
  cases assembled with
  | single _ isClause =>
    rw [isClause]
    rfl
  | merged | union =>
    rw [Statement.branches, unjoined]
    exact length_unionBranches _ _ _ _

/-- Without joins it is one clause that makes no union. -/
theorem Selection.isUnion_eq_false_iff (succeeds : selection.assemble = .ok statement)
    (unjoined : selection.joins = []) :
    statement.isUnion = false ↔ (branchConditions selection.condition).length = 1 := by
  constructor
  · intro plain
    obtain ⟨_, assembled⟩ := Selection.assembled succeeds
    cases assembled with
    | single _ isClause =>
      rw [isClause]
      rfl
    | merged | union => contradiction
  · intro one
    -- The form is not in `Assembled` for one clause, but it is the first thing that is looked at.
    obtain ⟨clause, isClause⟩ := List.length_eq_one_iff.mp one
    obtain ⟨distinct, columns, sources, joins, condition, grouping, aggregated, page⟩ := selection
    obtain rfl : joins = [] := unjoined
    rw [Selection.assemble, isClause] at succeeds
    split at succeeds
    · contradiction
    · obtain ⟨sources, _, succeeds⟩ := bind_eq_ok.mp succeeds
      obtain ⟨keys, _, succeeds⟩ := bind_eq_ok.mp succeeds
      obtain rfl := pure_eq_ok.mp succeeds
      rfl

end Sql

namespace Compilation

/-! ## Choices -/

/-- The labels of every labelled slot, those of nodes first. -/
def labelLists (graph : Graph) : List (List String) :=
  (graph.nodes.map Graph.Node.labels ++ graph.relations.map Graph.Relation.labels).filter
    fun labels => !labels.isEmpty

/-- The optimization is applied to a relation. -/
def MatchedOneWay (settings : Settings) (graph : Graph) (wheres : List Compiled)
    (relation : Graph.Relation) : Prop :=
  settings.optimizeEitherDirection = true ∧ Symmetric graph wheres relation

instance (settings : Settings) (graph : Graph) (wheres : List Compiled)
    (relation : Graph.Relation) : Decidable (MatchedOneWay settings graph wheres relation) :=
  inferInstanceAs (Decidable (_ ∧ _))

/-- The undirected relations to which the optimization is not applied. -/
def matchedBothWays (settings : Settings) (graph : Graph) (wheres : List Compiled) :
    List Graph.Relation :=
  graph.relations.filter fun relation =>
    relation.direction = .either ∧ ¬MatchedOneWay settings graph wheres relation

/-- In how many ways a label of each labelled slot and a way of each relation that is matched both
ways can be chosen.  A label that is written twice counts twice. -/
def choices (settings : Settings) (graph : Graph) (wheres : List Compiled) : Nat :=
  ((labelLists graph).map List.length).prod *
    2 ^ (matchedBothWays settings graph wheres).length

section

variable {settings : Settings} {graph : Graph} {wheres : List Compiled}

theorem choices_pos : 0 < choices settings graph wheres := by
  have labels : 0 < ((labelLists graph).map List.length).prod := by
    refine List.prod_pos fun count isOne => ?_
    obtain ⟨labels, isList, rfl⟩ := List.mem_map.mp isOne
    have present := (List.mem_filter.mp isList).2
    exact List.length_pos_iff.mpr (by simpa using present)
  exact Nat.mul_pos labels (Nat.two_pow_pos _)

/-- Predicates do not matter but for the relation to which the optimization is applied. -/
theorem choices_congr {others : List Compiled}
    (alike : ∀ relation, MatchedOneWay settings graph others relation ↔
      MatchedOneWay settings graph wheres relation) :
    choices settings graph others = choices settings graph wheres := by
  simp only [choices, matchedBothWays, alike]

theorem effectiveDirection_eq_either_iff {relation : Graph.Relation}
    (isOne : relation ∈ graph.relations) :
    effectiveDirection settings graph (gather wheres) relation = .either ↔
      relation.direction = .either ∧ ¬MatchedOneWay settings graph wheres relation := by
  cases on : settings.optimizeEitherDirection with
  | false => simp [effectiveDirection, MatchedOneWay, on]
  | true =>
    have same : settings.optimizing true = settings := by rw [Settings.optimizing, ← on]
    have direction : effectiveDirection (settings.optimizing true) graph (gather wheres) relation =
        if Symmetric graph wheres relation then .right else relation.direction :=
      effectiveDirection_optimizing_true isOne
    rw [← same, direction, same]
    -- A relation that is matched one way runs to the right, which is not both ways.
    by_cases symmetric : Symmetric graph wheres relation <;> simp [MatchedOneWay, on, symmetric]

/-! ## Clauses of a filter -/

/-- Every leaf holds, so that each clause is a way in which the filter does. -/
def always {α : Type} (_ : α) : Bool := true

theorem ways_labelCondition (row : Sql.Alias) (labels : List String) :
    ((labelCondition row labels).toList.map (Condition.ways always)).prod =
      (([labels].filter fun labels => !labels.isEmpty).map List.length).prod := by
  cases labels with
  | nil => rfl
  | cons label rest =>
    have ways : (Condition.any ((label :: rest).map fun label =>
        .leaf (Sql.Test.hasType row label))).ways always = (label :: rest).length := by
      rw [Condition.ways_any_leaves]
      exact List.countP_eq_length.mpr fun _ _ => rfl
    exact congrArg (fun count => [count].prod) ways

theorem prod_ways_labels {α : Type} (row : α → Sql.Alias) (labels : α → List String)
    (slots : List α) :
    ((slots.flatMap fun slot => (labelCondition (row slot) (labels slot)).toList).map
        (Condition.ways always)).prod =
      (((slots.map labels).filter fun labels => !labels.isEmpty).map List.length).prod := by
  induction slots with
  | nil => rfl
  | cons slot rest ih =>
    rw [List.flatMap_cons, List.map_append, List.prod_append, ih, ways_labelCondition,
      ← List.prod_append, ← List.map_append, ← List.filter_append]
    rfl

theorem prod_ways_labelConditions (graph : Graph) :
    ((labelConditions graph).map (Condition.ways always)).prod =
      ((labelLists graph).map List.length).prod := by
  rw [labelConditions, List.map_append, List.prod_append, prod_ways_labels, prod_ways_labels,
    ← List.prod_append, ← List.map_append, ← List.filter_append, labelLists]

theorem ways_endCondition_always (relation left right : Sql.Alias) (direction : Graph.Direction) :
    (endCondition relation left right direction).ways always =
      if direction = .either then 2 else 1 := by
  cases direction <;> rfl

theorem prod_ways_endConditions :
    ((endConditions settings graph (gather wheres)).map (Condition.ways always)).prod =
      2 ^ (matchedBothWays settings graph wheres).length := by
  have both : graph.relations.filter (fun relation =>
      effectiveDirection settings graph (gather wheres) relation = .either) =
      matchedBothWays settings graph wheres :=
    List.filter_congr fun relation isOne =>
      decide_eq_decide.mpr (effectiveDirection_eq_either_iff isOne)
  rw [endConditions, List.map_map, ← both]
  simp only [Function.comp_def, ways_endCondition_always, List.prod_map_ite]
  simp

/-- The filter has a clause for every choice. -/
theorem ways_filterOf :
    (filterOf settings graph (gather wheres)).ways always = choices settings graph wheres := by
  have shapes : ∀ conditions : List (Condition Sql.Test),
      (conditions.map (Condition.map Sql.Leaf.shape)).map (Condition.ways always) =
        conditions.map (Condition.ways always) := by
    intro conditions
    rw [List.map_map]
    exact List.map_congr_left fun condition _ => Condition.ways_map _ condition
  -- A predicate is one leaf, so it is a factor of one.
  have predicates : (((gather wheres).fragments.map fun fragment =>
      Condition.leaf (Sql.Leaf.predicate fragment)).map (Condition.ways always)).prod = 1 :=
    List.prod_eq_one (by simp [always])
  rw [filterOf, Condition.ways_all, List.map_append, List.prod_append, shapes, predicates, mul_one,
    List.map_append, List.prod_append, prod_ways_labelConditions, prod_ways_endConditions, choices]

theorem length_branchConditions :
    (Sql.branchConditions (filterOf settings graph (gather wheres))).length =
      choices settings graph wheres := by
  have clauses : (filterOf settings graph (gather wheres)).clauses.length =
      choices settings graph wheres :=
    (Condition.length_clauses _).trans ways_filterOf
  unfold Sql.branchConditions
  split
  -- There is a choice always, so no clause has to stand in.
  · next none =>
    have some : 0 < choices settings graph wheres := choices_pos
    rw [none, List.length_nil] at clauses
    omega
  · exact clauses

end

end Compilation

open Compilation

/-! ## Whole queries -/

/-- The patterns of all clauses of `MATCH`. -/
def Cypher.Query.patterns (query : Query) : List Pattern :=
  query.matchClauses.flatMap MatchClause.patterns

/-- The filter of a query is that of the graph of its patterns. -/
theorem Cypher.Query.filter_ok {settings : Settings} {query : Query} {selection : Sql.Selection}
    {projections : List Projection}
    (selected : query.selection settings = .ok (selection, projections)) :
    ∃ graph wheres, bindPatterns .empty query.patterns = .ok graph ∧
      List.Forall₂ (Filters settings) query.wheres wheres ∧
      selection.joins = [] ∧ selection.condition = filterOf settings graph (gather wheres) := by
  obtain ⟨progress, final, page, progressed, same, run, -, rfl⟩ := Query.run_ok selected
  obtain ⟨wheres, filters, gathered⟩ := Query.gathers run
  obtain ⟨matched, folded, passed⟩ := bind_eq_ok.mp progressed
  obtain ⟨graph, bound, whole⟩ := bindPatterns_of_matches folded
  have passes : SameGraph matched progress :=
    foldlM_keeps SameGraph.refl SameGraph.trans (fun _ _ _ => Progress.addWith_sameGraph) passed
  have isGraph : final.progress.graph.unscoped = graph.unscoped :=
    same.symm.trans (Eq.trans passes whole.symm)
  refine ⟨graph, wheres, bound, filters, rfl, ?_⟩
  dsimp only
  rw [gathered, filterOf_eq_of_unscoped isGraph]

theorem Cypher.Query.branches_ok {settings : Settings} {query : Query} {compiled : CompiledQuery}
    (compiles : query.compile settings = .ok compiled) :
    ∃ graph wheres, bindPatterns .empty query.patterns = .ok graph ∧
      List.Forall₂ (Filters settings) query.wheres wheres ∧
      compiled.statement.branches.length = choices settings graph wheres ∧
      (compiled.statement.isUnion = false ↔ choices settings graph wheres = 1) := by
  obtain ⟨⟨selection, projections⟩, selected, compiles⟩ := bind_eq_ok.mp compiles
  obtain ⟨statement, succeeds, isCompiled⟩ := bind_eq_ok.mp compiles
  obtain rfl := pure_eq_ok.mp isCompiled
  rw [mapError_eq_ok] at succeeds
  obtain ⟨graph, wheres, bound, filters, unjoined, isFilter⟩ := Query.filter_ok selected
  have branches := Sql.Selection.length_assembled succeeds unjoined
  have plain := Sql.Selection.isUnion_eq_false_iff succeeds unjoined
  rw [isFilter, length_branchConditions] at branches plain
  exact ⟨graph, wheres, bound, filters, branches, plain⟩

/-- A query has a branch for every choice of a label for each labelled slot of its patterns and of
a way for each undirected relation to which the optimization is not applied, and it is one `SELECT`
where there is one choice.  What its predicates are does not matter otherwise: another query with
the same patterns, to whose relations the optimization is applied alike, has as many branches. -/
theorem Cypher.Query.length_branches {settings : Settings} {query : Query}
    {compiled : CompiledQuery} (compiles : query.compile settings = .ok compiled) :
    ∃ graph wheres, bindPatterns .empty query.patterns = .ok graph ∧
      List.Forall₂ (Filters settings) query.wheres wheres ∧
      compiled.statement.branches.length = choices settings graph wheres ∧
      (compiled.statement.isUnion = false ↔ choices settings graph wheres = 1) ∧
      ∀ (other : Query) (compiled' : CompiledQuery), other.compile settings = .ok compiled' →
        other.patterns = query.patterns →
        ∃ others, List.Forall₂ (Filters settings) other.wheres others ∧
          ((∀ relation, MatchedOneWay settings graph others relation ↔
              MatchedOneWay settings graph wheres relation) →
            compiled'.statement.branches.length = compiled.statement.branches.length) := by
  obtain ⟨graph, wheres, bound, filters, branches, plain⟩ := Query.branches_ok compiles
  refine ⟨graph, wheres, bound, filters, branches, plain, ?_⟩
  intro other compiled' compiles' samePatterns
  obtain ⟨graph', others, bound', filters', branches', -⟩ := Query.branches_ok compiles'
  rw [samePatterns, bound] at bound'
  obtain rfl := Except.ok.inj bound'
  refine ⟨others, filters', fun alike => ?_⟩
  rw [branches, branches', choices_congr alike]

/-- Two labels of a node, one that a relation has twice, and another relation that is matched both
ways.  The predicates are disjunctions. -/
def severalChoicesText : String :=
  "MATCH (a:ip:domain)-[r:seen|seen]->(b)-[s]-(c) WHERE a.value = 'x' OR b.value = 'y' " ++
    "WITH a, b WHERE a = b OR NOT (a.value = 'x' AND b.value = 'y') RETURN a, b"

/-- The same patterns without predicates. -/
def unfilteredText : String :=
  "MATCH (a:ip:domain)-[r:seen|seen]->(b)-[s]-(c) RETURN c"

theorem Cypher.Query.length_branches_severalChoicesText :
    ∃ query other compiled compiled' graph wheres,
      Query.parse severalChoicesText = .ok query ∧ Query.parse unfilteredText = .ok other ∧
      query.compile .standard = .ok compiled ∧ other.compile .standard = .ok compiled' ∧
      other.patterns = query.patterns ∧ bindPatterns .empty query.patterns = .ok graph ∧
      compiled.statement.branches.length = choices .standard graph wheres ∧
      choices .standard graph wheres = 8 ∧ compiled.statement.isUnion = true ∧
      compiled'.statement.branches.length = compiled.statement.branches.length := by
  have evaluated : ((Query.parse severalChoicesText).toOption.any fun query =>
      (Query.parse unfilteredText).toOption.any fun other =>
        (query.compile .standard).toOption.any fun compiled =>
          (other.compile .standard).toOption.any fun _ =>
            (bindPatterns .empty query.patterns).toOption.any fun graph =>
              decide (other.patterns = query.patterns) && graph.relations.length == 2 &&
                compiled.statement.branches.length == 8) = true := by
    decide +kernel
  simp only [Option.any_eq_true, toOption_eq_some, Bool.and_eq_true, beq_iff_eq,
    decide_eq_true_eq] at evaluated
  obtain ⟨query, parsed, other, parsed', compiled, compiles, compiled', compiles', graph, isGraph,
    ⟨samePatterns, two⟩, eight⟩ := evaluated
  obtain ⟨graph, wheres, bound, _, branches, plain, same⟩ := query.length_branches compiles
  obtain rfl := Except.ok.inj (isGraph.symm.trans bound)
  obtain ⟨others, -, same⟩ := same other compiled' compiles' samePatterns
  -- There are two relations, so the optimization is applied to none.
  have kept : ∀ wheres relation, ¬MatchedOneWay .standard graph wheres relation := by
    rintro wheres relation ⟨-, symmetric⟩
    simp [symmetric.only] at two
  have isEight : choices .standard graph wheres = 8 := branches.symm.trans eight
  have isUnion : compiled.statement.isUnion = true := by
    rw [← Bool.not_eq_false, plain, isEight]
    decide
  exact ⟨query, other, compiled, compiled', graph, wheres, parsed, parsed', compiles, compiles',
    samePatterns, bound, branches, isEight, isUnion,
    same fun relation => iff_of_false (kept others relation) (kept wheres relation)⟩

end CypherSql
