import CypherSql.Proofs.Compilation.Matches
import CypherSql.Proofs.Compilation.Origins
import CypherSql.Proofs.Compilation.Runs
import CypherSql.Proofs.Sql.Branches

/-! # Where expressions are put in the statement of a query

Every `SELECT` of the statement has the rows of all slots, filters by all predicates and lists all
columns of the draft that the run of the query ends in.

* `leaves_filterOf`, `holds_filterOf_true` — what a filter tests, and that it can hold.
* `Places` — the parts of a `SELECT` and where they come from.
* `Run.forall_lexemes` — what the expressions of a query give all of its lexemes.
* `Run.exists_lexeme` — what is written for a pattern is in every `SELECT`.
* `Query.compile_places` — the `SELECT`s of a query that is accepted.
* `anyBranch` — a text is a query that is accepted, with some `SELECT` as a test asks for.
-/

namespace CypherSql

open CypherSql.Cypher
open CypherSql.Sql (Branch Column Leaf Lexeme Statement Test)

namespace Compilation

/-! ## Filters -/

section

variable (settings : Settings) (graph : Graph) (predicates : Predicates)

/-- The tests that come from the labels and the ends of slots. -/
def shapeTests : List Test :=
  (labelConditions graph ++ endConditions settings graph predicates).flatMap Condition.leaves

theorem leaves_filterOf : (filterOf settings graph predicates).leaves =
    (shapeTests settings graph predicates).map .shape ++
      predicates.fragments.map .predicate := by
  rw [filterOf, Condition.leaves_all, List.flatMap_append, shapeTests, List.map_flatMap,
    List.flatMap_map, List.flatMap_map, List.map_eq_flatMap]
  simp only [Condition.leaves_map, Condition.leaves_leaf]

theorem holds_labelCondition_true {row : Sql.Alias} {labels : List String}
    {condition : Condition Test} (isOne : condition ∈ (labelCondition row labels).toList) :
    condition.holds (fun _ => true) = true := by
  obtain ⟨present, rfl⟩ := mem_labelCondition.mp isOne
  simpa using List.exists_mem_of_ne_nil labels present

theorem holds_endCondition_true (relation left right : Sql.Alias) (direction : Graph.Direction) :
    (endCondition relation left right direction).holds (fun _ => true) = true := by
  cases direction <;> simp [endCondition, runsBetween]

theorem mem_leaves_labelCondition {row : Sql.Alias} {labels : List String} {test : Test} :
    test ∈ (labelCondition row labels).toList.flatMap Condition.leaves ↔
      ∃ label ∈ labels, test = .hasType row label := by
  rw [List.mem_flatMap]
  constructor
  · rintro ⟨condition, isOne, isLeaf⟩
    obtain ⟨-, rfl⟩ := mem_labelCondition.mp isOne
    simpa [eq_comm] using isLeaf
  · rintro ⟨label, isLabel, rfl⟩
    exact ⟨_, mem_labelCondition.mpr ⟨List.ne_nil_of_mem isLabel, rfl⟩, by simpa using isLabel⟩

/-- A relation is tested for the nodes that it runs between. -/
theorem mem_leaves_endCondition {relation left right : Sql.Alias} {direction : Graph.Direction}
    {test : Test} (isLeaf : test ∈ (endCondition relation left right direction).leaves) :
    ∃ node, (node = left ∨ node = right) ∧
      (test = .runsFrom relation node ∨ test = .runsTo relation node) := by
  cases direction <;> simp [endCondition, runsBetween] at isLeaf <;> grind

/-- A filter tests the labels of slots, and that relations run between their nodes. -/
theorem mem_shapeTests {test : Test} : test ∈ shapeTests settings graph predicates ↔
    (∃ node ∈ graph.nodes, ∃ label ∈ node.labels, test = .hasType (nodeRow node.id) label) ∨
      ∃ relation ∈ graph.relations,
        (∃ label ∈ relation.labels, test = .hasType (relationRow relation.id) label) ∨
        test ∈ (endCondition (relationRow relation.id) (nodeRow relation.left)
          (nodeRow relation.right)
          (effectiveDirection settings graph predicates relation)).leaves := by
  rw [shapeTests, labelConditions, endConditions, List.flatMap_append, List.flatMap_append,
    List.flatMap_assoc, List.flatMap_assoc, List.flatMap_map]
  simp only [List.mem_append, List.mem_flatMap (l := graph.nodes),
    List.mem_flatMap (l := graph.relations), mem_leaves_labelCondition, or_assoc, ← exists_or,
    ← and_or_left]

/-- Nothing in a filter is a disjunction of nothing. -/
theorem holds_filterOf_true :
    (filterOf settings graph predicates).holds (fun _ => true) = true := by
  rw [filterOf, Condition.holds_all, List.all_append, Bool.and_eq_true, List.all_map, List.all_map]
  constructor
  · rw [List.all_eq_true]
    intro condition isOne
    rw [Function.comp_apply, Condition.holds_map]
    rcases List.mem_append.mp isOne with isLabel | isEnd
    · rcases List.mem_append.mp isLabel with ofNode | ofRelation
      · obtain ⟨node, _, isOne⟩ := List.mem_flatMap.mp ofNode
        exact holds_labelCondition_true isOne
      · obtain ⟨relation, _, isOne⟩ := List.mem_flatMap.mp ofRelation
        exact holds_labelCondition_true isOne
    · obtain ⟨relation, _, rfl⟩ := List.mem_map.mp isEnd
      exact holds_endCondition_true _ _ _ _
  · simp [Function.comp_def]

end

/-! ## Statements -/

/-- The parts of a `SELECT`, by the draft that they come from. -/
structure Places (settings : Settings) (final : Draft) (branch : Branch Statement) : Prop where
  sources : branch.sources = slotTables settings final.progress.graph
  joins : branch.joins = []
  predicates : ∀ fragment, .predicate fragment ∈ branch.condition.leaves ↔
    fragment ∈ final.progress.predicates.fragments
  tests : ∀ test, .shape test ∈ branch.condition.leaves →
    test ∈ shapeTests settings final.progress.graph final.progress.predicates
  values : branch.columns.map Column.value = final.layout.columns.map Column.value
  keys : ∀ fragment, .expression fragment ∈ branch.keys →
    ∃ column ∈ branch.columns, fragment = column.value

theorem Places.of_branch {settings : Settings} {final : Draft} {selection : Sql.Selection}
    {branch : Branch Statement} (isBranch : branch.Of selection)
    (sources : branch.sources = slotTables settings final.progress.graph)
    (joins : branch.joins = []) (condition : selection.condition =
      filterOf settings final.progress.graph final.progress.predicates)
    (columns : selection.columns = final.layout.columns) : Places settings final branch := by
  have origin : ∀ {leaf}, leaf ∈ branch.condition.leaves → leaf ≠ .never → _ :=
    fun isLeaf isOther => (isBranch.leaf_origin isLeaf).resolve_right isOther
  rw [condition, leaves_filterOf] at origin
  constructor
  case sources => exact sources
  case joins => exact joins
  case predicates =>
    intro fragment
    constructor
    · intro isLeaf
      simpa using origin isLeaf nofun
    · intro isOne
      have holds := condition ▸ holds_filterOf_true settings _ _
      exact isBranch.leaf_mem condition holds
        (List.mem_append_right _ (List.mem_map_of_mem isOne))
  case tests =>
    intro test isLeaf
    simpa using origin isLeaf nofun
  case values => rw [isBranch.values, columns]
  case keys => exact isBranch.keys

/-! ## Lexemes -/

section

variable {settings : Settings} {final : Draft} {branch : Branch Statement}
  (places : Places settings final branch)

include places

theorem Places.mem_lexemes {lexeme : Lexeme} : lexeme ∈ branch.lexemes ↔
    (∃ fragment ∈ final.progress.predicates.fragments, lexeme ∈ fragment) ∨
      ∃ column ∈ final.layout.columns, lexeme ∈ column.value := by
  have sameValues : ∀ fragment, (∃ column ∈ branch.columns, column.value = fragment) ↔
      ∃ column ∈ final.layout.columns, column.value = fragment := by
    intro fragment
    rw [← List.mem_map, places.values, List.mem_map]
  have columns : (∃ column ∈ branch.columns, lexeme ∈ column.value) ↔
      ∃ column ∈ final.layout.columns, lexeme ∈ column.value := by
    constructor <;> rintro ⟨column, isColumn, isOne⟩
    · obtain ⟨other, isOther, same⟩ := (sameValues _).mp ⟨column, isColumn, rfl⟩
      exact ⟨other, isOther, same ▸ isOne⟩
    · obtain ⟨other, isOther, same⟩ := (sameValues _).mpr ⟨column, isColumn, rfl⟩
      exact ⟨other, isOther, same ▸ isOne⟩
  rw [← columns, Branch.lexemes, List.mem_append, List.mem_append]
  simp only [List.mem_flatMap]
  constructor
  · rintro ((inColumn | ⟨leaf, isLeaf, isOne⟩) | ⟨key, isKey, isOne⟩)
    · exact .inr inColumn
    · cases leaf with
      | predicate fragment => exact .inl ⟨fragment, (places.predicates fragment).mp isLeaf, isOne⟩
      | shape | never => nomatch isOne
    · cases key with
      | expression fragment =>
        obtain ⟨column, isColumn, rfl⟩ := places.keys fragment isKey
        exact .inr ⟨column, isColumn, isOne⟩
      | named => nomatch isOne
  · rintro (⟨fragment, isFragment, isOne⟩ | inColumn)
    · exact .inl (.inr ⟨.predicate fragment, (places.predicates fragment).mpr isFragment, isOne⟩)
    · exact .inl (.inl inColumn)

end

section

variable {settings : Settings} {query : Query} {final : Draft}
  (run : Run (.start settings) query.events final)

include run

/-- A property that every expression gives its lexemes where it stands is one of all predicates and
columns. -/
theorem Run.draft_lexemes {Q : Lexeme → Prop} (ofRows : OfRows Q)
    (accepts : ∀ stage ∈ query.stages, ∀ draft : Draft,
      Sound settings (Lexemes Q) stage.known draft.progress → draft.Within final →
        Accepts draft.progress.bindings draft.progress.graph stage.event.ingredients Q) :
    (∀ fragment ∈ final.progress.predicates.fragments, ∀ lexeme ∈ fragment, Q lexeme) ∧
      ∀ column ∈ final.layout.columns, ∀ lexeme ∈ column.value, Q lexeme := by
  have compiles : ∀ stage ∈ query.stages, Upholds settings (Lexemes Q) final stage := by
    intro stage isStage draft sound within expression isOne compiled next compiles
    have accepted := accepts stage isStage draft sound within
    rw [Event.ingredients, isOne] at accepted
    exact Progress.compile_lexemes ofRows sound.compiled sound.holds accepted compiles
  constructor
  · intro fragment isFragment
    obtain ⟨stage, isStage, before, after, predicate, compiled, next, passed, isPredicate, ran,
      rfl⟩ := run.predicate_origin compiles isFragment
    have isEvent : stage.event.expression? = some predicate := by
      rcases isPredicate with same | ⟨same, -⟩ <;> rw [same, Event.expression?]
    have lexemes := compiles stage isStage before passed.sound passed.within_before
      predicate isEvent compiled next ran
    exact conjunct_lexemes ofRows (Progress.compile_whole passed.sound.compiled ran) lexemes
  · intro column isColumn
    obtain ⟨stage, isStage, before, after, item, compiled, next, passed, isItem, ran, isColumn⟩ :=
      run.item_origin compiles isColumn
    have isEvent : stage.event.expression? = some item.expression := by
      rw [isItem, Event.expression?]
    have lexemes := compiles stage isStage before passed.sound passed.within_before
      item.expression isEvent compiled next ran
    exact column_lexemes ofRows (Progress.compile_whole passed.sound.compiled ran)
      (Progress.compile_laid passed.sound.compiled ran) lexemes isColumn

/-- So it is one of all lexemes of a `SELECT`. -/
theorem Run.forall_lexemes {branch : Branch Statement} (places : Places settings final branch)
    {Q : Lexeme → Prop} (ofRows : OfRows Q)
    (accepts : ∀ stage ∈ query.stages, ∀ draft : Draft,
      Sound settings (Lexemes Q) stage.known draft.progress → draft.Within final →
        Accepts draft.progress.bindings draft.progress.graph stage.event.ingredients Q) :
    ∀ lexeme ∈ branch.lexemes, Q lexeme := by
  obtain ⟨inFragments, inColumns⟩ := run.draft_lexemes ofRows accepts
  intro lexeme isOne
  rcases places.mem_lexemes.mp isOne with ⟨fragment, isFragment, isOne⟩ | ⟨column, isColumn, isOne⟩
  · exact inFragments fragment isFragment lexeme isOne
  · exact inColumns column isColumn lexeme isOne

omit run in
/-- Every pattern of an expression can be tested for where it stands. -/
theorem Passed.embeds {P : Compiled → Prop} {stage : Stage} {before after : Draft}
    (passed : Passed settings P final stage before after) {pattern : Pattern}
    (isOne : .pattern pattern ∈ stage.event.ingredients) :
    ∃ embedding, embeds before.progress.graph pattern = some embedding := by
  rw [Event.ingredients] at isOne
  cases isExpression : stage.event.expression? with
  | none => simp [isExpression] at isOne
  | some expression =>
    obtain ⟨compiled, next, compiles⟩ := passed.step.compiles isExpression
    rw [isExpression] at isOne
    obtain ⟨embedding, isEmbedding, _⟩ :=
      Progress.compile_test_mem passed.sound.compiled compiles isOne
    exact ⟨embedding, isEmbedding⟩

/-- The test for a pattern in a predicate or an item of `RETURN` is in every `SELECT`. -/
theorem Run.exists_lexeme {stage : Stage} (isStage : stage ∈ query.stages)
    (isShown : stage.event.isShown = true) {pattern : Pattern}
    (isOne : .pattern pattern ∈ stage.event.ingredients) :
    ∃ before embedding, Run (.start settings) stage.earlier before ∧
      Sound settings (fun _ => True) stage.known before.progress ∧
      embeds before.progress.graph pattern = some embedding ∧
      ∀ branch, Places settings final branch →
        .existing (embedding.subselect settings) ∈ branch.lexemes := by
  obtain ⟨before, after, passed⟩ := run.passed (fun stage _ => upholds_true stage) isStage
  have given := passed.sound.compiled
  obtain ⟨expression, compiled, next, isExpression, compiles, shown⟩ := passed.step.shown isShown
  rw [Event.ingredients, isExpression] at isOne
  obtain ⟨embedding, isEmbedding, isTest⟩ := Progress.compile_test_mem given compiles isOne
  rw [passed.sound.settings] at isTest
  refine ⟨before, embedding, passed.reached, passed.sound, isEmbedding, fun branch places => ?_⟩
  have whole := Progress.compile_whole given compiles
  rw [places.mem_lexemes]
  rcases shown with isFragment | ⟨item, areColumns⟩
  · exact .inl ⟨_, passed.within.fragments isFragment, mem_conjunct whole isTest⟩
  · obtain ⟨column, isColumn, isTest⟩ :=
      exists_mem_columnsOf whole (Progress.compile_laid given compiles) item isTest
    exact .inr ⟨column, passed.within.columns (areColumns isColumn), isTest⟩

end

end Compilation

open Compilation

/-- A query that is accepted is a run of its events, and the end of the run is what every `SELECT`
of its statement is made of. -/
theorem Cypher.Query.compile_places {settings : Settings} {query : Query}
    {compiled : CompiledQuery} (compiles : query.compile settings = .ok compiled) :
    ∃ progress final, query.progress settings = .ok progress ∧
      final.progress.graph.unscoped = progress.graph.unscoped ∧
      requireKnownLabels settings progress.graph = .ok () ∧
      Run (.start settings) query.events final ∧
      ∀ branch ∈ compiled.statement.branches, Places settings final branch := by
  obtain ⟨⟨selection, projections⟩, selected, compiles⟩ := bind_eq_ok.mp compiles
  obtain ⟨statement, succeeds, result⟩ := bind_eq_ok.mp compiles
  obtain rfl := pure_eq_ok.mp result
  rw [mapError_eq_ok] at succeeds
  obtain ⟨progress, final, page, progressed, same, run, known, rfl⟩ := Query.run_ok selected
  refine ⟨progress, final, progressed, same.symm, known, run, fun branch isOne => ?_⟩
  obtain ⟨sources, areSources, each⟩ := Sql.Selection.branches_ok succeeds
  rw [assembleSources_sourcesOf] at areSources
  obtain rfl := Except.ok.inj areSources
  obtain ⟨sameSources, isAlternative⟩ := each branch isOne
  exact .of_branch (Sql.Selection.branch_of succeeds isOne) sameSources
    (List.mem_singleton.mp isAlternative) rfl rfl

/-! ## Texts -/

/-- Some `SELECT` of the query that a text is passes a test. -/
def Compilation.anyBranch (text : String) (passes : Branch Statement → Bool) : Bool :=
  (Query.parse text).toOption.any fun query =>
    (query.compile .standard).toOption.any fun compiled => compiled.statement.branches.any passes

theorem Compilation.exists_of_anyBranch {text : String} {passes : Branch Statement → Bool}
    (evaluated : anyBranch text passes = true) : ∃ query compiled branch,
      Query.parse text = .ok query ∧ query.compile .standard = .ok compiled ∧
        branch ∈ compiled.statement.branches ∧ passes branch = true := by
  rw [anyBranch, Option.any_eq_true] at evaluated
  obtain ⟨query, parsed, evaluated⟩ := evaluated
  rw [Option.any_eq_true] at evaluated
  obtain ⟨compiled, compiles, evaluated⟩ := evaluated
  obtain ⟨branch, isOne, passes⟩ := List.any_eq_true.mp evaluated
  exact ⟨query, compiled, branch, toOption_eq_some.mp parsed, toOption_eq_some.mp compiles, isOne,
    passes⟩

end CypherSql
