import CypherSql.Proofs.Compilation.Reports
import CypherSql.Proofs.Compilation.Runs

/-! # What compiling an expression does to the graph

The graph goes through the whole compiler, and a pattern that is tested for is mentioned in it slot
by slot, also where the test fails half-way.  All that this does is to record, under the number of
the test, which slots were mentioned.

* `Graph.AddsScopes` — two graphs differ in who mentions a slot, and no slot loses a scope.
* `Tested.addsScopes`, `Tested.numbers` — what tests record, and under which numbers.
* `Tries`, `Makes` — the tests for the patterns of one expression, and of several.
* `Bindings.FromGraph` — names that were given to expressions over one graph as it grew.
* `compile_addsScopes` — compiling an expression adds scopes, each under a number of its own, and
  its record speaks of slots that are there.
* `progress_fromGraph` — the names of a query are given to such expressions.
-/

namespace CypherSql

open CypherSql.Cypher
open CypherSql.Graph (Scope Slot SlotKind)

/-! ## Graphs that differ in scopes -/

namespace Graph

/-- The slots, with their labels, ends and directions, and the meaning of names are the same.  No
slot loses a scope, and all scopes that are added are of one sort. -/
structure AddsScopes (added : Scope → Prop) (before after : Graph) : Prop where
  slots : after.unscoped = before.unscoped
  kept : ∀ slot, before.scopes slot ⊆ after.scopes slot
  new : ∀ slot, ∀ scope ∈ after.scopes slot, scope ∈ before.scopes slot ∨ added scope

theorem mem_scopes_of_addScope {graph : Graph} {changed slot : Slot} {scope other : Scope}
    (mentions : other ∈ (graph.addScope changed scope).scopes slot) :
    other ∈ graph.scopes slot ∨ other = scope := by
  obtain ⟨kind, index⟩ := slot
  obtain ⟨changedKind, changedIndex⟩ := changed
  cases kind with
  | node =>
    obtain ⟨node, there, isOne⟩ := mem_scopes_node.mp mentions
    rw [mem_scopes_node]
    cases changedKind with
    | node =>
      simp only [addScope, List.getElem?_modify] at there
      obtain ⟨first, isFirst, rfl⟩ := Option.map_eq_some_iff.mp there
      split at isOne
      · rcases Compilation.mem_of_mem_insertOrdered isOne with same | early
        · exact .inr same
        · exact .inl ⟨first, isFirst, early⟩
      · exact .inl ⟨first, isFirst, isOne⟩
    | relation => exact .inl ⟨node, there, isOne⟩
  | relation =>
    obtain ⟨relation, there, isOne⟩ := mem_scopes_relation.mp mentions
    rw [mem_scopes_relation]
    cases changedKind with
    | node => exact .inl ⟨relation, there, isOne⟩
    | relation =>
      simp only [addScope, List.getElem?_modify] at there
      obtain ⟨first, isFirst, rfl⟩ := Option.map_eq_some_iff.mp there
      split at isOne
      · rcases Compilation.mem_of_mem_insertOrdered isOne with same | early
        · exact .inr same
        · exact .inl ⟨first, isFirst, early⟩
      · exact .inl ⟨first, isFirst, isOne⟩

theorem Extends.keepsNames {earlier later : Graph} (grows : earlier.Extends later) :
    KeepsNames earlier later := by
  obtain ⟨rest, bound⟩ := grows.bound
  intro name slot named
  obtain ⟨entry, isEntry, same⟩ := Option.map_eq_some_iff.mp named
  rw [slot?, ← bound, List.find?_append, isEntry, Option.some_or]
  exact congrArg some same

namespace AddsScopes

variable {added : Scope → Prop} {before after last : Graph}

theorem refl (graph : Graph) : AddsScopes added graph graph :=
  ⟨rfl, fun _ => List.Subset.refl _, fun _ _ isOne => .inl isOne⟩

theorem trans (first : AddsScopes added before after) (second : AddsScopes added after last) :
    AddsScopes added before last where
  slots := second.slots.trans first.slots
  kept slot := List.Subset.trans (first.kept slot) (second.kept slot)
  new slot scope isOne := by
    rcases second.new slot scope isOne with early | isNew
    · exact first.new slot scope early
    · exact .inr isNew

theorem imp {others : Scope → Prop} (adds : AddsScopes added before after)
    (weaker : ∀ scope, added scope → others scope) : AddsScopes others before after :=
  { adds with new := fun slot scope isOne => (adds.new slot scope isOne).imp_right (weaker scope) }

theorem addScope (graph : Graph) (slot : Slot) (scope : Scope) :
    AddsScopes (· = scope) graph (graph.addScope slot scope) where
  slots := unscoped_addScope graph slot scope
  kept := (Extends.addScope graph slot scope).scopes
  new _ _ := mem_scopes_of_addScope

theorem grows (adds : AddsScopes added before after) : before.Extends after := by
  obtain ⟨nodes, relations⟩ := Within.of_unscoped adds.slots
  exact ⟨nodes, relations, bound_eq_of_unscoped adds.slots ▸ List.prefix_rfl, adds.kept⟩

end AddsScopes

end Graph

namespace Compilation

/-! ## Tests -/

/-- A mention under some scope adds this scope to a slot, if it does anything. -/
def MentionsUnder (scope : Scope) (before after : CompilerState) : Prop :=
  before.graph.AddsScopes (· = scope) after.graph ∧ after.nextPattern = before.nextPattern

theorem MentionsUnder.refl (scope : Scope) (state : CompilerState) :
    MentionsUnder scope state state :=
  ⟨.refl _, rfl⟩

theorem MentionsUnder.trans (scope : Scope) (first second third : CompilerState)
    (left : MentionsUnder scope first second) (right : MentionsUnder scope second third) :
    MentionsUnder scope first third :=
  ⟨left.1.trans right.1, right.2.trans left.2⟩

theorem mentionOuter_mentionsUnder (scope : Scope) (name : Option String) (kind : SlotKind)
    (labels : List String) :
    Relates (MentionsUnder scope) (mentionOuter name kind labels scope) := by
  intro state
  refine ⟨?_, fun _ _ => trivial⟩
  rw [run_mentionOuter]
  cases mentioned : state.graph.mentionAgain? name kind labels scope with
  | error error => exact .refl scope state
  | ok result =>
    obtain ⟨found, graph⟩ := result
    rcases Graph.mentionAgain?_ok mentioned with ⟨_, _, rfl⟩ | ⟨_, slot, _, _, _, _, _, rfl⟩
    · exact .refl scope state
    · exact ⟨.addScope _ slot scope, rfl⟩

theorem ofPattern_mentionsUnder (scope : Scope) (pattern : Pattern) :
    Relates (MentionsUnder scope) (Embedding.ofPattern scope pattern) := by
  have refl := MentionsUnder.refl scope
  have trans := MentionsUnder.trans scope
  have mention := mentionOuter_mentionsUnder scope
  apply meets_bind_any trans (Embedding.relates_addNode refl trans mention _ _)
  intro start
  exact Embedding.relates_addHops refl trans mention _ _ _

/-- A test mentions slots under the number that is next, and uses this number up. -/
theorem existence_addsScopes (settings : Settings) (pattern : Pattern) (state : CompilerState) :
    let after := ((existence settings pattern).run.run state).2
    state.graph.AddsScopes (· = .test state.nextPattern) after.graph ∧
      after.nextPattern = state.nextPattern + 1 := by
  obtain ⟨⟨adds, last⟩, -⟩ := ofPattern_mentionsUnder (.test state.nextPattern) pattern
    { state with nextPattern := state.nextPattern + 1 }
  rw [run_existence]
  exact ⟨adds, last⟩

namespace Tested

variable {settings : Settings} {before after : CompilerState} {tests : List (Nat × Pattern)}

/-- Tests have the numbers that follow each other. -/
theorem numbers (tested : Tested settings before tests after) :
    tests.map Prod.fst = List.range' before.nextPattern tests.length ∧
      after.nextPattern = before.nextPattern + tests.length := by
  induction tested with
  | nil state => exact ⟨rfl, rfl⟩
  | @cons state after tests pattern _ ih =>
    obtain ⟨numbers, last⟩ := ih
    have next := (existence_addsScopes settings pattern state).2
    rw [next] at numbers last
    refine ⟨?_, ?_⟩
    · rw [List.map_cons, numbers, List.length_cons, List.range'_succ]
    · rw [last, List.length_cons]
      omega

theorem addsScopes (tested : Tested settings before tests after) :
    before.graph.AddsScopes (fun scope => ∃ test ∈ tests, scope = .test test.1) after.graph := by
  induction tested with
  | nil state => exact .refl _
  | @cons state after tests pattern _ ih =>
    refine .trans (.imp (existence_addsScopes settings pattern state).1 ?_) (ih.imp ?_)
    · exact fun scope isOne => ⟨_, List.mem_cons_self, isOne⟩
    · rintro scope ⟨test, isTest, same⟩
      exact ⟨test, List.mem_cons_of_mem _ isTest, same⟩

/-- Every number lies between those of the states. -/
theorem number_mem (tested : Tested settings before tests after) {test : Nat × Pattern}
    (isTest : test ∈ tests) : before.nextPattern ≤ test.1 ∧ test.1 < after.nextPattern := by
  obtain ⟨numbers, last⟩ := tested.numbers
  have isNumber : test.1 ∈ tests.map Prod.fst := List.mem_map_of_mem isTest
  rw [numbers, List.mem_range'_1] at isNumber
  omega

end Tested

/-! ## Expressions -/

/-- The tests that compiling an expression makes: those for its patterns in their order, up to where
it fails. -/
structure Tries (bindings : Bindings) (expression : Expression) (state : CompilerState)
    (tests : List (Nat × Pattern)) : Prop where
  tested : Tested bindings.settings state tests ((compile bindings expression).run.run state).2
  inOrder : tests.map Prod.snd <+: expression.patterns
  whole : ∀ compiled, ((compile bindings expression).run.run state).1 = .ok compiled →
    tests.map Prod.snd = expression.patterns

theorem exists_tries (bindings : Bindings) (expression : Expression) (state : CompilerState) :
    ∃ tests, Tries bindings expression state tests := by
  have accounts : Accounts bindings state.graph expression.ingredients ([·])
    (compile bindings expression) := compile_accounts expression
  obtain ⟨tests, tested, inOrder, whole⟩ := accounts state rfl
  exact ⟨tests, tested, inOrder, fun compiled compiles => (whole compiled compiles).1⟩

/-- An expression with the names and the graph that it is compiled with. -/
structure Task where
  bindings : Bindings
  graph : Graph
  expression : Expression

/-- What a compiler starts with that has used up the numbers below the given one. -/
def Task.state (task : Task) (number : Nat) : CompilerState :=
  ⟨task.graph, number⟩

/-- The number that is next behind the task. -/
def Task.next (task : Task) (number : Nat) : Nat :=
  ((compile task.bindings task.expression).run.run (task.state number)).2.nextPattern

/-- The tests of a compiler that is given some tasks, one after the other.  From one task to the
next it keeps nothing but the number of the next pattern. -/
inductive Makes : Nat → List Task → List (Nat × Pattern) → Prop where
  | nil (number : Nat) : Makes number [] []
  | cons {number : Nat} {task : Task} {rest : List Task} {tests others : List (Nat × Pattern)}
      (tries : Tries task.bindings task.expression (task.state number) tests)
      (makes : Makes (task.next number) rest others) :
      Makes number (task :: rest) (tests ++ others)

/-- However many expressions a compiler is given, and whether they compile or not, the patterns in
them are numbered one after the other. -/
theorem Makes.numbers {number : Nat} {tasks : List Task} {tests : List (Nat × Pattern)}
    (makes : Makes number tasks tests) :
    tests.map Prod.fst = List.range' number tests.length := by
  induction makes with
  | nil => rfl
  | @cons number task rest tests others tries _ ih =>
    obtain ⟨numbers, last⟩ := tries.tested.numbers
    have next : task.next number = number + tests.length := last
    rw [List.map_append, numbers, ih, next, List.length_append, Task.state,
      ← List.range'_append_1]

/-! ## Slots that are there -/

/-- Names that were given to expressions, each compiled over the given graph or over what the graph
was before. -/
inductive Bindings.FromGraph (graph : Graph) : Bindings → Prop where
  | none (settings : Settings) : FromGraph graph ⟨settings, []⟩
  | bind {bindings : Bindings} (fromGraph : FromGraph graph bindings) {expression : Expression}
      {state : CompilerState} {compiled : Compiled} (earlier : state.graph.Extends graph)
      (compiles : ((compile bindings expression).run.run state).1 = .ok compiled) (name : String) :
      FromGraph graph (bindings.bind name compiled)

theorem mem_reads_of_slot {compiled : Compiled} (whole : Whole compiled) {slot : Slot}
    (isSlot : compiled.slot = some slot) : slot ∈ compiled.reads := by
  rw [whole slot isSlot]
  exact List.mem_singleton_self slot

section

variable {bindings : Bindings} {graph : Graph} {P : Slot → Prop}

/-- What holds of the slots of names and of all that was given a name, holds of what an ingredient
reads. -/
theorem holds_of_denoted (given : bindings.Given)
    (named : ∀ name slot, graph.slot? name = some slot → P slot)
    (reads : ∀ name found, bindings.find? name = some found → ∀ slot ∈ found.reads, P slot)
    {ingredient : Ingredient} {slot : Slot}
    (isOne : slot ∈ bindings.denoted graph ingredient) : P slot := by
  cases ingredient with
  | name name path =>
    simp only [Bindings.denoted] at isOne
    cases bound : graph.slot? name with
    | some found =>
      rw [bound] at isOne
      obtain rfl := List.mem_singleton.mp isOne
      exact named name slot bound
    | none =>
      cases isGiven : bindings.find? name with
      | none => simp [bound, isGiven] at isOne
      | some found =>
        simp only [bound, isGiven] at isOne
        split at isOne
        · exact reads name found isGiven slot isOne
        · have whole := (given.made (made_whole bindings.settings)).find? isGiven
          have isSlot : found.slot = some slot := by simpa using isOne
          exact reads name found isGiven slot (mem_reads_of_slot whole isSlot)
  | pattern pattern =>
    obtain ⟨name, _, bound⟩ := List.mem_filterMap.mp isOne
    exact named name slot bound
  | literal | call | countAll => cases isOne

theorem holds_of_reads (given : bindings.Given) {state : CompilerState}
    (named : ∀ name slot, state.graph.slot? name = some slot → P slot)
    (reads : ∀ name found, bindings.find? name = some found → ∀ slot ∈ found.reads, P slot)
    {expression : Expression} {compiled : Compiled}
    (compiles : ((compile bindings expression).run.run state).1 = .ok compiled) :
    ∀ slot ∈ compiled.reads, P slot := by
  intro slot isRead
  obtain ⟨ingredient, _, denoted⟩ := ((compile_reports compiles).1 slot).mp isRead
  exact holds_of_denoted given named reads denoted

end

namespace Bindings.FromGraph

variable {graph later : Graph} {bindings : Bindings}

theorem given (fromGraph : bindings.FromGraph graph) : bindings.Given := by
  induction fromGraph with
  | none settings => exact .none settings
  | bind _ _ compiles name ih => exact ih.bind compiles name

theorem mono (fromGraph : bindings.FromGraph graph) (grows : graph.Extends later) :
    bindings.FromGraph later := by
  induction fromGraph with
  | none settings => exact .none settings
  | bind _ earlier compiles name ih => exact ih.bind (earlier.trans grows) compiles name

/-- What was given a name reads slots that are there. -/
theorem reads_mem_slots (wellFormed : graph.WellFormed) (fromGraph : bindings.FromGraph graph) :
    ∀ name found, bindings.find? name = some found → ∀ slot ∈ found.reads, slot ∈ graph.slots := by
  induction fromGraph with
  | none => exact fun _ _ isFound => nomatch isFound
  | bind fromGraph earlier compiles name ih =>
    intro other found isFound
    rw [Bindings.find?_bind] at isFound
    split at isFound
    · obtain rfl := Option.some.inj isFound
      refine holds_of_reads fromGraph.given (fun given slot bound => ?_) ih compiles
      exact Graph.mem_slots.mpr (wellFormed.index_lt (earlier.keepsNames given slot bound))
    · exact ih other found isFound

end Bindings.FromGraph

/-- Compiling an expression leaves the graph as it is but for scopes, whether it succeeds or fails.
The scopes that are added are those of its tests for patterns, and no test of the same compiler has
the number of another, be it for the same expression or for a later one.  If it succeeds, and names
were given to expressions over the same graph, its record speaks of slots that are there, given that
names stand for such slots, as they do in every graph that calls bring about. -/
theorem compile_addsScopes (bindings : Bindings) (expression : Expression)
    (state : CompilerState) :
    let outcome := (compile bindings expression).run.run state
    ∃ tests, Tries bindings expression state tests ∧
      state.graph.AddsScopes
        (fun scope => ∃ test ∈ tests, scope = .test test.1 ∧ state.nextPattern ≤ test.1 ∧
          test.1 < outcome.2.nextPattern) outcome.2.graph ∧
      state.nextPattern ≤ outcome.2.nextPattern ∧
      (∀ tasks others, Makes outcome.2.nextPattern tasks others →
        ((tests ++ others).map Prod.fst).Nodup) ∧
      (state.graph.WellFormed → bindings.FromGraph state.graph →
        ∀ compiled, outcome.1 = .ok compiled →
          ∀ slot, slot ∈ compiled.reads ∨ compiled.slot = some slot →
            slot ∈ outcome.2.graph.slots) := by
  intro outcome
  obtain ⟨tests, tries⟩ := exists_tries bindings expression state
  have adds := tries.tested.addsScopes
  refine ⟨tests, tries, adds.imp ?_, ?_, ?_, ?_⟩
  · rintro scope ⟨test, isTest, same⟩
    exact ⟨test, isTest, same, tries.tested.number_mem isTest⟩
  · rw [tries.tested.numbers.2]
    exact Nat.le_add_right _ _
  · intro tasks others makes
    have all : Makes state.nextPattern (⟨bindings, state.graph, expression⟩ :: tasks)
        (tests ++ others) := .cons tries makes
    rw [all.numbers]
    exact List.nodup_range'
  · intro wellFormed fromGraph compiled compiles slot isSlot
    have isRead : slot ∈ compiled.reads := by
      rcases isSlot with isRead | isSlot
      · exact isRead
      · have made := fromGraph.given.made (made_whole bindings.settings)
        exact mem_reads_of_slot (compile_holds made compiles) isSlot
    have there : slot ∈ state.graph.slots := by
      refine holds_of_reads fromGraph.given (fun name found bound => ?_)
        (fromGraph.reads_mem_slots wellFormed) compiles slot isRead
      exact Graph.mem_slots.mpr (wellFormed.index_lt bound)
    exact (Graph.Within.of_unscoped adds.slots).slots there

/-! ## The names of a query -/

theorem Progress.compile_extends {progress next : Progress} {expression : Expression}
    {compiled : Compiled} (compiles : progress.compile expression = .ok (compiled, next)) :
    progress.graph.Extends next.graph := by
  obtain ⟨state, ran, rfl⟩ := Progress.compile_run compiles
  obtain ⟨tests, tries⟩ := exists_tries progress.bindings expression
    ⟨progress.graph, progress.nextPattern⟩
  have adds := tries.tested.addsScopes
  rw [ran] at adds
  exact adds.grows

theorem Step.fromGraph {draft after : Draft} {event : Event} (step : Step draft event after)
    (fromGraph : draft.progress.bindings.FromGraph draft.progress.graph) :
    after.progress.bindings.FromGraph after.progress.graph := by
  cases step with
  | mention bound => exact fromGraph.mono (bindPattern_extends bound)
  | filter compiles | pass compiles | keep compiles | list compiles =>
    have kept := fromGraph.mono (Progress.compile_extends compiles)
    rwa [← (Progress.compile_ok compiles).2.1] at kept
  | give compiles named =>
    have grows := Progress.compile_extends compiles
    obtain ⟨state, ran, rfl⟩ := Progress.compile_run compiles
    exact (fromGraph.mono grows).bind grows (congrArg Prod.fst ran) _

/-- The names that `WITH` gives are given to expressions over the graph of the query. -/
theorem Run.fromGraph {draft final : Draft} {events : List Event} (run : Run draft events final)
    (fromGraph : draft.progress.bindings.FromGraph draft.progress.graph) :
    final.progress.bindings.FromGraph final.progress.graph := by
  induction run with
  | nil => exact fromGraph
  | cons step _ ih => exact ih (step.fromGraph fromGraph)

theorem progress_fromGraph {settings : Settings} {query : Query} {progress : Progress}
    (progressed : query.progress settings = .ok progress) :
    progress.bindings.FromGraph progress.graph :=
  (Query.run_clauses progressed).fromGraph (.none settings)

/-- An item with two patterns and a name that was given to a node. -/
def testedText : String :=
  "MATCH (a)-[r]->(b) WITH a AS m RETURN m.value = 'x' OR (a)-->(:ip) OR (b)<-[:seen]-(a)"

theorem compile_addsScopes_testedText : ∃ query progress item compiled,
    Query.parse testedText = .ok query ∧ query.progress .standard = .ok progress ∧
      item ∈ query.returnClause.items ∧ progress.graph.WellFormed ∧
      progress.bindings.FromGraph progress.graph ∧
      ∃ after, (compile progress.bindings item.expression).run.run
          ⟨progress.graph, progress.nextPattern⟩ = (.ok compiled, after) ∧
        after.nextPattern = progress.nextPattern + 2 ∧
        after.graph.scopes ⟨.node, 0⟩ = [.clause, .test 0, .test 1] ∧
        ∃ tests, Tries progress.bindings item.expression
            ⟨progress.graph, progress.nextPattern⟩ tests ∧
          progress.graph.AddsScopes
            (fun scope => ∃ test ∈ tests, scope = .test test.1 ∧
              progress.nextPattern ≤ test.1 ∧ test.1 < after.nextPattern) after.graph ∧
          (∀ tasks others, Makes after.nextPattern tasks others →
            ((tests ++ others).map Prod.fst).Nodup) ∧
          ∀ slot, slot ∈ compiled.reads ∨ compiled.slot = some slot →
            slot ∈ after.graph.slots := by
  have evaluated : ((Query.parse testedText).toOption.any fun query =>
      (query.progress .standard).toOption.any fun progress =>
        query.returnClause.items.any fun item =>
          let outcome := (compile progress.bindings item.expression).run.run
            ⟨progress.graph, progress.nextPattern⟩
          outcome.1.toOption.isSome && (outcome.2.nextPattern = progress.nextPattern + 2 &&
            outcome.2.graph.scopes ⟨.node, 0⟩ = [.clause, .test 0, .test 1])) = true := by
    decide +kernel
  rw [Option.any_eq_true] at evaluated
  obtain ⟨query, parsed, evaluated⟩ := evaluated
  rw [Option.any_eq_true] at evaluated
  obtain ⟨progress, progressed, evaluated⟩ := evaluated
  obtain ⟨item, isItem, evaluated⟩ := List.any_eq_true.mp evaluated
  simp only [Bool.and_eq_true, decide_eq_true_eq] at evaluated
  obtain ⟨succeeds, numbered, scopes⟩ := evaluated
  obtain ⟨compiled, compiles⟩ := Option.isSome_iff_exists.mp succeeds
  rw [toOption_eq_some] at parsed progressed compiles
  have wellFormed := progress_wellFormed progressed
  have fromGraph := progress_fromGraph progressed
  obtain ⟨tests, tries, adds, -, apart, there⟩ :=
    compile_addsScopes progress.bindings item.expression ⟨progress.graph, progress.nextPattern⟩
  exact ⟨query, progress, item, compiled, parsed, progressed, isItem, wellFormed, fromGraph,
    _, Prod.ext compiles rfl, numbered, scopes, tests, tries, adds, apart,
    there wellFormed fromGraph compiled compiles⟩

end Compilation

end CypherSql
