import CypherSql.Proofs.Compilation.Following
import CypherSql.Proofs.Compilation.Scopes

/-! # Patterns in the first `MATCH`

A predicate of `MATCH` is compiled in the graph of the patterns up to its clause.  What it is
compiled to depends on the names in it alone, so it does not matter when later patterns add their
slots, unless they bind one of these names.

* `hoist`, `Query.hoisted` — all patterns in the first `MATCH`, and every predicate in its clause.
* `Query.bindsInTime` — the names in a predicate are bound by the patterns up to its clause, or by
  none.
* `AgreeOn` — graphs in which some names mean slots with the same labels.
* `Aside.compile` — an expression, compiled in two such graphs.
* `Aside.addMatches` — all clauses of `MATCH`, with their patterns and behind all of them.
* `Query.compile_hoisted` — a query, and the query with its patterns in the first `MATCH`.
-/

namespace CypherSql

open CypherSql.Cypher
open CypherSql.Graph (BindingError Scope Slot SlotKind)
open CypherSql.Sql (GenerationError)

/-! ## Moving patterns -/

namespace Cypher

def MatchClause.variables (clause : MatchClause) : List String :=
  clause.patterns.flatMap Pattern.names

def MatchClause.withoutPatterns (clause : MatchClause) : MatchClause :=
  { clause with patterns := [] }

/-- All patterns stand in the first clause, and every predicate where it was. -/
def hoist : List MatchClause → List MatchClause
  | [] => []
  | first :: others =>
    { first with patterns := (first :: others).flatMap MatchClause.patterns } ::
      others.map MatchClause.withoutPatterns

def Query.hoisted (query : Query) : Query :=
  { query with matchClauses := hoist query.matchClauses }

/-- Every name in the predicate of a clause is bound by an earlier clause or by this one, or it is
none of the variables that all clauses bind. -/
def bindInTime (everywhere bound : List String) : List MatchClause → Bool
  | [] => true
  | clause :: rest =>
    (clause.predicate.toList.all fun predicate => (Event.filter predicate).mentions.all fun name =>
      (bound ++ clause.variables).contains name || !everywhere.contains name) &&
    bindInTime everywhere (bound ++ clause.variables) rest

def Query.bindsInTime (query : Query) : Bool :=
  bindInTime query.variables [] query.matchClauses

end Cypher

namespace Graph

/-! ## Graphs that agree on names -/

/-- The names mean the same slots, and these slots have the same labels. -/
structure AgreeOn (names : List String) (graph graph' : Graph) : Prop where
  slot : ∀ name ∈ names, graph'.slot? name = graph.slot? name
  labels : ∀ name ∈ names, ∀ slot, graph.slot? name = some slot →
    graph'.labels slot = graph.labels slot

variable {names : List String} {graph graph' : Graph}

/-- Who mentions a slot does not matter. -/
theorem AgreeOn.of_unscoped (agree : AgreeOn names graph graph') {later later' : Graph}
    (same : later.unscoped = graph.unscoped) (same' : later'.unscoped = graph'.unscoped) :
    AgreeOn names later later' := by
  constructor
  case slot =>
    intro name isName
    rw [slot?_eq_of_unscoped same, slot?_eq_of_unscoped same', agree.slot name isName]
  case labels =>
    intro name isName slot bound
    rw [slot?_eq_of_unscoped same] at bound
    rw [labels_eq_of_unscoped same, labels_eq_of_unscoped same',
      agree.labels name isName slot bound]

theorem Extends.labels (grows : graph.Extends graph') {slot : Slot}
    (there : slot.index < graph.size slot.kind) : graph'.labels slot = graph.labels slot := by
  obtain ⟨kind, index⟩ := slot
  cases kind with
  | node =>
    have inRange : index < (graph.nodes.map Node.unscoped).length := by simpa [size] using there
    have same := List.prefix_iff_getElem?.mp grows.nodes index inRange
    rw [← List.getElem?_eq_getElem inRange] at same
    simpa [Graph.labels, Function.comp_def, Node.unscoped] using
      congrArg (fun node => (node.map Node.labels).getD []) same
  | relation =>
    have inRange : index < (graph.relations.map Relation.unscoped).length := by
      simpa [size] using there
    have same := List.prefix_iff_getElem?.mp grows.relations index inRange
    rw [← List.getElem?_eq_getElem inRange] at same
    simpa [Graph.labels, Function.comp_def, Relation.unscoped] using
      congrArg (fun relation => (relation.map Relation.labels).getD []) same

/-- A graph and a later one agree on names that are bound in both or in none. -/
theorem Extends.agreeOn (grows : graph.Extends graph') (wellFormed : graph.WellFormed)
    (known : ∀ name ∈ names, (graph'.slot? name).isSome = true →
      (graph.slot? name).isSome = true) : AgreeOn names graph graph' := by
  constructor
  case slot =>
    intro name isName
    cases bound : graph.slot? name with
    | some slot => exact grows.keepsNames name slot bound
    | none =>
      rw [← Option.not_isSome_iff_eq_none]
      intro later
      simpa [bound] using known name isName later
  case labels => exact fun name isName slot bound => grows.labels (wellFormed.index_lt bound)

theorem AgreeOn.mentionAgain? (agree : AgreeOn names graph graph') {name : Option String}
    (isName : ∀ given ∈ name, given ∈ names) (kind : SlotKind) (labels : List String)
    (scope : Scope) :
    Alike id (fun result result' => result'.1 = result.1)
      (graph.mentionAgain? name kind labels scope)
      (graph'.mentionAgain? name kind labels scope) := by
  cases name with
  | none => exact .ok rfl
  | some name =>
    show Alike id _ (graph.mentionAgain name kind labels scope)
      (graph'.mentionAgain name kind labels scope)
    unfold mentionAgain
    rw [agree.slot name (isName name rfl)]
    cases bound : graph.slot? name with
    | none => exact .ok rfl
    | some slot =>
      dsimp only
      rw [agree.labels name (isName name rfl) slot bound]
      split
      · exact .error rfl
      · split
        · exact .error rfl
        · exact .ok rfl

end Graph

namespace Compilation

open CypherSql.Graph (AgreeOn)

/-! ## Expressions in graphs that agree -/

/-- The graphs agree on these names, and the next test has the same number. -/
structure Beside (names : List String) (state state' : CompilerState) : Prop where
  graph : AgreeOn names state.graph state'.graph
  nextPattern : state'.nextPattern = state.nextPattern

section

variable {names : List String}

theorem mentionOuter_beside {name : Option String} (isName : ∀ given ∈ name, given ∈ names)
    (kind : SlotKind) (labels : List String) (scope : Scope) :
    Couples (Beside names) (Into id) (mentionOuter name kind labels scope)
      (mentionOuter name kind labels scope) := by
  intro state state' beside
  have alike := beside.graph.mentionAgain? isName kind labels scope
  rw [run_mentionOuter, run_mentionOuter]
  generalize mentioned : state.graph.mentionAgain? name kind labels scope = result,
    mentioned' : state'.graph.mentionAgain? name kind labels scope = result' at alike ⊢
  cases alike with
  | error same =>
    exact ⟨.error (congrArg (fun error => (GenerationError.binding error).anonymous) same), beside⟩
  | ok same =>
    have graph := beside.graph.of_unscoped (Graph.mentionAgain?_unscoped mentioned)
      (Graph.mentionAgain?_unscoped mentioned')
    exact ⟨.ok same, graph, beside.nextPattern⟩

theorem freshPattern_beside : Couples (Beside names) (Into id) freshPattern freshPattern :=
  fun _ _ beside => ⟨.ok beside.nextPattern, beside.graph, congrArg (· + 1) beside.nextPattern⟩

theorem beside_coupling (bindings : Bindings) :
    Coupling id names (Beside names) bindings bindings where
  apart := Graph.keepsApart_id names
  assets := rfl
  relations := rfl
  slot _ _ beside name isName := beside.graph.slot name isName
  given _ _ _ name _ _ := (optionMap_rename_id Compiled.rename_id (bindings.find? name)).symm
  mention name kind labels scope isName := by
    rw [Option.map_id, id]
    exact mentionOuter_beside isName kind labels scope
  fresh := freshPattern_beside

end

namespace Progress

/-- Everything but the graph is the same. -/
structure Aside (progress progress' : Progress) : Prop where
  nextPattern : progress'.nextPattern = progress.nextPattern
  bindings : progress'.bindings = progress.bindings
  predicates : progress'.predicates = progress.predicates

variable {progress progress' : Progress}

/-- An expression whose names mean the same in both graphs is compiled to the same. -/
theorem Aside.compile (aside : Aside progress progress') {expression : Expression}
    {names : List String} (agree : AgreeOn names progress.graph progress'.graph)
    (within : Within names expression.ingredients) {compiled : Compiled} {next : Progress}
    (compiles : progress.compile expression = .ok (compiled, next)) :
    ∃ next', progress'.compile expression = .ok (compiled, next') ∧ Aside next next' := by
  obtain ⟨state, ran, rfl⟩ := Progress.compile_run compiles
  obtain ⟨alike, beside⟩ := compile_couples (beside_coupling progress.bindings) expression within
    ⟨progress.graph, progress.nextPattern⟩ ⟨progress'.graph, progress'.nextPattern⟩
    ⟨agree, aside.nextPattern⟩
  rw [Expression.rename_id, ran] at alike
  rw [Expression.rename_id, ran] at beside
  unfold Progress.compile
  rw [aside.bindings]
  dsimp only at alike beside ⊢
  generalize (Compilation.compile progress.bindings expression).run.run
    ⟨progress'.graph, progress'.nextPattern⟩ = outcome at alike beside ⊢
  obtain ⟨result, state'⟩ := outcome
  cases alike with
  | ok same =>
    obtain rfl := same
    rw [Compiled.rename_id]
    exact ⟨_, rfl, beside.nextPattern, rfl, aside.predicates⟩

theorem Aside.filter (aside : Aside progress progress') {predicate : Option Expression}
    {names : List String} (agree : AgreeOn names progress.graph progress'.graph)
    (within : ∀ expression ∈ predicate, Within names expression.ingredients) {next : Progress}
    (filtered : progress.filter predicate = .ok next) :
    ∃ next', progress'.filter predicate = .ok next' ∧ Aside next next' := by
  cases predicate with
  | none =>
    obtain rfl := Except.ok.inj filtered
    exact ⟨progress', rfl, aside⟩
  | some predicate =>
    obtain ⟨⟨compiled, between⟩, compiles, result⟩ := bind_eq_ok.mp filtered
    obtain rfl := pure_eq_ok.mp result
    obtain ⟨between', compiles', aside⟩ := aside.compile agree (within predicate rfl) compiles
    refine ⟨_, bind_eq_ok.mpr ⟨(compiled, between'), compiles', rfl⟩, aside.nextPattern,
      aside.bindings, ?_⟩
    rw [aside.predicates]

end Progress

/-! ## Patterns behind one another -/

theorem Step.extends {draft after : Draft} {event : Event} (step : Step draft event after) :
    draft.progress.graph.Extends after.progress.graph := by
  cases step with
  | mention bound => exact bindPattern_extends bound
  | filter compiles | give compiles | keep compiles | pass compiles | list compiles =>
    have grows := Progress.compile_extends compiles
    exact grows

theorem Run.extends {draft final : Draft} {events : List Event} (run : Run draft events final) :
    draft.progress.graph.Extends final.progress.graph := by
  induction run with
  | nil => exact .refl _
  | cons step _ ih => exact step.extends.trans ih

theorem bindPatterns_congr {graph graph' : Graph} (same : graph'.unscoped = graph.unscoped)
    (patterns : List Pattern) :
    Alike BindingError.anonymous (fun after after' => after'.unscoped = after.unscoped)
      (bindPatterns graph patterns) (bindPatterns graph' patterns) := by
  -- The patterns are renamed to themselves, so the records are all that the two runs differ in.
  let names := graph.bound.map Prod.fst ++ patterns.flatMap Pattern.mentions
  have named : graph.NamedBy names :=
    fun _ isEntry => List.mem_append_left _ (List.mem_map_of_mem isEntry)
  have areNames : ∀ pattern ∈ patterns, ∀ name ∈ pattern.mentions, name ∈ names :=
    fun pattern isOne _ isName =>
      List.mem_append_right _ (List.mem_flatMap.mpr ⟨pattern, isOne, isName⟩)
  have alike := bindPatterns_renamed (Graph.keepsApart_id names) areNames
    ⟨same.trans (congrArg _ graph.rename_id.symm), named⟩
  rw [map_rename_id Pattern.rename_id] at alike
  refine alike.imp fun after after' renamed => ?_
  rw [renamed.unscoped, Graph.rename_id]

/-- Clauses that take effect one after the other add the slots that all their patterns add at
once. -/
theorem bindPatterns_of_matches {clauses : List MatchClause} {progress matched : Progress}
    (folded : clauses.foldlM Progress.addMatch progress = .ok matched) :
    ∃ graph, bindPatterns progress.graph (clauses.flatMap MatchClause.patterns) = .ok graph ∧
      graph.unscoped = matched.graph.unscoped := by
  induction clauses generalizing progress with
  | nil =>
    obtain rfl := pure_eq_ok.mp folded
    exact ⟨progress.graph, rfl, rfl⟩
  | cons clause rest ih =>
    rw [List.foldlM_cons] at folded
    obtain ⟨next, added, folded⟩ := bind_eq_ok.mp folded
    obtain ⟨graph, bound, filtered⟩ := bind_eq_ok.mp added
    have same : next.graph.unscoped = graph.unscoped := (Progress.filter_ok filtered).1
    obtain ⟨later, boundRest, isLater⟩ := ih folded
    have alike := bindPatterns_congr same.symm (rest.flatMap MatchClause.patterns)
    rw [boundRest] at alike
    generalize boundOthers : bindPatterns graph (rest.flatMap MatchClause.patterns) = outcome
      at alike
    cases alike with
    | @ok _ last sameLast =>
      refine ⟨last, ?_, sameLast.trans isLater⟩
      rw [List.flatMap_cons, bindPatterns, List.foldlM_append]
      exact bind_eq_ok.mpr ⟨graph, mapError_eq_ok.mp bound, boundOthers⟩

theorem foldlM_hoist {clauses : List MatchClause} {progress : Progress} {graph : Graph}
    (bound : bindPatterns progress.graph (clauses.flatMap MatchClause.patterns) = .ok graph) :
    (hoist clauses).foldlM Progress.addMatch progress =
      (clauses.map MatchClause.withoutPatterns).foldlM Progress.addMatch
        { progress with graph } := by
  cases clauses with
  | nil =>
    obtain rfl := pure_eq_ok.mp bound
    rfl
  | cons first others =>
    have added : progress.addMatch
        ⟨(first :: others).flatMap MatchClause.patterns, first.predicate⟩ =
        Progress.addMatch { progress with graph } first.withoutPatterns := by
      rw [Progress.addMatch, bound]
      rfl
    rw [hoist, List.map_cons, List.foldlM_cons, List.foldlM_cons, added]

/-- A name in the predicate of a clause that is bound by some clause is bound behind the patterns
of this one. -/
theorem bound_of_bindInTime {everywhere bound : List String} {clause : MatchClause}
    {rest : List MatchClause} (timely : bindInTime everywhere bound (clause :: rest) = true)
    {predicate : Expression} (isPredicate : predicate ∈ clause.predicate) {name : String}
    (isName : name ∈ (Event.filter predicate).mentions) (isVariable : name ∈ everywhere) :
    name ∈ bound ∨ name ∈ clause.variables := by
  rw [bindInTime, Bool.and_eq_true, List.all_eq_true] at timely
  have ofPredicate := timely.1 predicate (Option.mem_toList.mpr isPredicate)
  simpa [isVariable] using List.all_eq_true.mp ofPredicate name isName

/-- The predicates come to the same with each clause's patterns in front of them and with all
patterns in front. -/
theorem Progress.Aside.addMatches {clauses : List MatchClause} {everywhere bound : List String}
    (timely : bindInTime everywhere bound clauses = true) {progress progress' matched : Progress}
    (aside : Aside progress progress')
    (known : ∀ name, (progress.graph.slot? name).isSome = true ↔ name ∈ bound)
    (wellFormed : progress.graph.WellFormed)
    (folded : clauses.foldlM Progress.addMatch progress = .ok matched)
    (isVariable : ∀ name, (matched.graph.slot? name).isSome = true → name ∈ everywhere)
    (whole : progress'.graph.unscoped = matched.graph.unscoped) :
    ∃ matched', (clauses.map MatchClause.withoutPatterns).foldlM Progress.addMatch progress' =
        .ok matched' ∧
      Aside matched matched' ∧ matched'.graph.unscoped = matched.graph.unscoped := by
  induction clauses generalizing progress progress' bound with
  | nil =>
    obtain rfl := pure_eq_ok.mp folded
    exact ⟨progress', rfl, aside, whole⟩
  | cons clause rest ih =>
    rw [List.foldlM_cons] at folded
    obtain ⟨next, added, foldedRest⟩ := bind_eq_ok.mp folded
    obtain ⟨graph, matches', filtered⟩ := bind_eq_ok.mp added
    have names := bindPatterns_names (mapError_eq_ok.mp matches')
    have runRest : Run ⟨next, .empty⟩ (rest.flatMap MatchClause.events) ⟨matched, .empty⟩ :=
      .of_foldlM (fun _ _ _ added => Progress.addMatch_run added) foldedRest
    have run := (Progress.filter_run filtered).append runRest
    -- Here the predicate has the graph of the clauses so far, there that of all clauses.
    have agree : AgreeOn (clause.predicate.toList.flatMap fun predicate =>
        (Event.filter predicate).mentions) graph progress'.graph := by
      refine Graph.AgreeOn.of_unscoped ?_ rfl whole
      apply run.extends.agreeOn (bindPatterns_wellFormed wellFormed (mapError_eq_ok.mp matches'))
      intro name isName later
      obtain ⟨predicate, isPredicate, isName⟩ := List.mem_flatMap.mp isName
      rw [names, known]
      exact bound_of_bindInTime timely (Option.mem_toList.mp isPredicate) isName
        (isVariable name later)
    have within : ∀ predicate ∈ clause.predicate, Within (clause.predicate.toList.flatMap
        fun predicate => (Event.filter predicate).mentions) predicate.ingredients :=
      fun predicate isPredicate part isPart name isName => List.mem_flatMap.mpr
        ⟨predicate, Option.mem_toList.mpr isPredicate,
          List.mem_flatMap.mpr ⟨part, isPart, isName⟩⟩
    have behind : Aside { progress with graph } progress' := { aside with }
    obtain ⟨next', filtered', asideNext⟩ := behind.filter agree within filtered
    have timelyRest : bindInTime everywhere (bound ++ clause.variables) rest = true := by
      rw [bindInTime, Bool.and_eq_true] at timely
      exact timely.2
    have knownNext : ∀ name, (next.graph.slot? name).isSome = true ↔
        name ∈ bound ++ clause.variables := by
      intro name
      rw [addMatch_names added, known, List.mem_append]
      rfl
    -- A predicate adds no slot, so all slots are there for the next clause as well.
    have wholeNext : next'.graph.unscoped = matched.graph.unscoped :=
      Eq.trans (Progress.filter_ok filtered').1 whole
    obtain ⟨matched', foldedRest', asideMatched, same⟩ := ih timelyRest asideNext knownNext
      (Progress.addMatch_wellFormed wellFormed added) foldedRest wholeNext
    refine ⟨matched', ?_, asideMatched, same⟩
    rw [List.map_cons, List.foldlM_cons]
    exact bind_eq_ok.mpr ⟨next', filtered', foldedRest'⟩

/-- Behind all patterns it does not matter who mentioned a slot. -/
theorem Progress.Aside.follows {names : List String} {matched matched' : Progress}
    (aside : Aside matched matched') (named : matched.graph.NamedBy names)
    (same : matched'.graph.unscoped = matched.graph.unscoped) :
    Progress.Follows id names matched matched' where
  twins :=
    { apart := Graph.keepsApart_id names
      assets := by rw [aside.bindings]
      relations := by rw [aside.bindings] }
  paired :=
    { graph := ⟨by rw [same, Graph.rename_id], named⟩
      nextPattern := aside.nextPattern
      given := fun name _ _ => by
        rw [aside.bindings, id, optionMap_rename_id Compiled.rename_id] }
  predicates := by rw [aside.predicates, Predicates.rename_id]

/-- Under the same names and the same settings nothing else is selected. -/
theorem ResultFollows.eq {settings : Settings} {final : Draft}
    {result result' : Sql.Selection × List Projection}
    (follows : ResultFollows id settings settings.optimizeEitherDirection final result result') :
    result' = result := by
  have condition : filterOf (settings.optimizing settings.optimizeEitherDirection)
      final.progress.graph final.progress.predicates = result.1.condition := follows.condition.symm
  rw [follows.eq_optimizing, condition]
  obtain ⟨⟨⟩, projections⟩ := result
  rfl

end Compilation

open Compilation

/-! ## Whole queries -/

section

variable {settings : Settings} {query : Query}

/-- The clauses of `MATCH` add the same slots, and their predicates come to the same. -/
theorem Cypher.Query.matches_hoisted (timely : query.bindsInTime = true) {matched : Progress}
    (folded : query.matchClauses.foldlM Progress.addMatch (.start settings) = .ok matched) :
    ∃ matched', query.hoisted.matchClauses.foldlM Progress.addMatch (.start settings) =
        .ok matched' ∧
      Progress.Follows id query.mentions matched matched' := by
  obtain ⟨graph, bound, whole⟩ := bindPatterns_of_matches folded
  have areBound : ∀ name, (matched.graph.slot? name).isSome = true → name ∈ query.variables := by
    intro name isBound
    rw [← Graph.slot?_eq_of_unscoped whole, bindPatterns_names bound] at isBound
    simpa [Query.variables, List.flatMap_assoc] using isBound.resolve_left Bool.false_ne_true
  have start : Progress.Aside (.start settings) { Progress.start settings with graph } :=
    ⟨rfl, rfl, rfl⟩
  obtain ⟨matched', folded', aside, same⟩ := start.addMatches timely
    (fun name => iff_of_false Bool.false_ne_true List.not_mem_nil) Graph.wellFormed_empty folded
    areBound whole
  -- The query is renamed to itself, which tells which names there are.
  have alike := query.matches_rename query.renaming_id settings settings.optimizeEitherDirection
  rw [folded] at alike
  generalize (query.rename id).matchClauses.foldlM Progress.addMatch
    (.start (settings.optimizing settings.optimizeEitherDirection)) = renamed at alike
  cases alike with
  | ok itself =>
    exact ⟨matched', (foldlM_hoist bound).trans folded', aside.follows itself.graph.named same⟩

theorem Cypher.Query.selection_hoisted (timely : query.bindsInTime = true)
    {result : Sql.Selection × List Projection} (selected : query.selection settings = .ok result) :
    query.hoisted.selection settings = .ok result := by
  rw [Query.selection_eq] at selected ⊢
  obtain ⟨progress, progressed, selected⟩ := bind_eq_ok.mp selected
  obtain ⟨matched, folded, passed⟩ := bind_eq_ok.mp progressed
  obtain ⟨matched', folded', follows⟩ := query.matches_hoisted timely folded
  have passes := query.passes_rename query.renaming_id follows (bound_of_matched folded)
  rw [query.rename_id, passed] at passes
  generalize passed' : query.withClauses.foldlM Progress.addWith matched' = outcome at passes
  cases passes with
  | @ok _ progress' follows =>
    have selects := follows.selection settings settings.optimizeEitherDirection
    rw [query.rename_id, selected] at selects
    have sameSettings : settings.optimizing settings.optimizeEitherDirection = settings := rfl
    rw [sameSettings] at selects
    generalize selected' : progress'.selection settings query.returnClause = outcome at selects
    cases selects with
    | @ok _ result' follows =>
      obtain ⟨final, -, follows⟩ := follows
      obtain rfl := follows.eq
      have progressed' : query.hoisted.progress settings = .ok progress' :=
        bind_eq_ok.mpr ⟨matched', folded', passed'⟩
      exact bind_eq_ok.mpr ⟨progress', progressed', selected'⟩

/-- How patterns are split over the clauses of `MATCH` does not matter, where a name in the
predicate of a clause is bound up to this clause or by none: with all patterns in the first clause,
and every predicate in its own, a query is compiled to the same statement and the same
projections. -/
theorem Cypher.Query.compile_hoisted (timely : query.bindsInTime = true)
    {compiled : CompiledQuery} (compiles : query.compile settings = .ok compiled) :
    query.hoisted.compile settings = .ok compiled := by
  obtain ⟨result, selected, assembled⟩ := bind_eq_ok.mp compiles
  exact bind_eq_ok.mpr ⟨result, query.selection_hoisted timely selected, assembled⟩

end

/-- Predicates in three clauses: one of them tests for a pattern over variables of two clauses,
another one reads a name that nothing binds. -/
def splitText : String :=
  "MATCH (a:ip)-[r]->(b) WHERE a.value = 'x' MATCH (b)-[s]->(c) WHERE (a)-->(c) OR a = b " ++
    "MATCH (d:ip) WHERE elsewhere = 'z' WITH a.value AS name RETURN name, c, d"

theorem Cypher.Query.compile_hoisted_splitText : ∃ query compiled,
    Query.parse splitText = .ok query ∧ query.bindsInTime = true ∧
      query.matchClauses.map (·.patterns.length) = [1, 1, 1] ∧
      query.hoisted.matchClauses.map (·.patterns.length) = [3, 0, 0] ∧
      query.compile .standard = .ok compiled ∧ query.hoisted.compile .standard = .ok compiled := by
  have evaluated : ((Query.parse splitText).toOption.any fun query => query.bindsInTime &&
      query.matchClauses.map (·.patterns.length) == [1, 1, 1] &&
      query.hoisted.matchClauses.map (·.patterns.length) == [3, 0, 0] &&
        (query.compile .standard).toOption.isSome) = true := by
    decide +kernel
  rw [Option.any_eq_true] at evaluated
  obtain ⟨query, parsed, evaluated⟩ := evaluated
  simp only [Bool.and_eq_true, beq_iff_eq] at evaluated
  obtain ⟨⟨⟨timely, split⟩, moved⟩, succeeds⟩ := evaluated
  obtain ⟨compiled, compiles⟩ := Option.isSome_iff_exists.mp succeeds
  rw [toOption_eq_some] at parsed compiles
  exact ⟨query, compiled, parsed, timely, split, moved, compiles,
    query.compile_hoisted timely compiles⟩

end CypherSql
