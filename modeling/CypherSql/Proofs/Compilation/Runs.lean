import CypherSql.Proofs.Compilation.Graphs
import CypherSql.Proofs.Compilation.Levels
import CypherSql.Proofs.Cypher.Events
import CypherSql.Proofs.Graph.Within

/-! # Compiling a query is a run of its events

The events of a query take effect on a draft: its progress and the columns of its items so far.
What holds before each of them is proved once, by going through the run, and then used for every
expression of the query, wherever it stands.

* `Step`, `Run` — what one event does to a draft, and what all events do.
* `Query.run_ok` — a query that is accepted is such a run.
* `Sound` — what holds of every draft, given the names that are known there.
* `Run.stage` — every event takes effect on a sound draft, and what it adds stays.
* `Run.fragment_origin`, `Run.column_origin` — where predicates and columns come from.
-/

namespace CypherSql

open CypherSql.Cypher
open CypherSql.Sql (Column Fragment)

namespace Compilation

/-! ## Steps -/

structure Draft where
  progress : Progress
  layout : Layout

def Draft.start (settings : Settings) : Draft :=
  ⟨.start settings, .empty⟩

/-- All that an event can do to a draft. -/
inductive Step (draft : Draft) : Event → Draft → Prop where
  | mention {pattern : Pattern} {graph : Graph}
      (bound : bindPattern draft.progress.graph pattern = .ok graph) :
      Step draft (.mention pattern) { draft with progress := { draft.progress with graph } }
  | filter {predicate : Expression} {compiled : Compiled} {next : Progress}
      (compiles : draft.progress.compile predicate = .ok (compiled, next)) :
      Step draft (.filter predicate)
        { draft with progress := { next with predicates := next.predicates.add compiled } }
  | give {item : ProjectionItem} {name : String} {compiled : Compiled} {next : Progress}
      (compiles : draft.progress.compile item.expression = .ok (compiled, next))
      (named : item.name = some name) :
      Step draft (.give item)
        { draft with progress := { next with bindings := next.bindings.bind name compiled } }
  | keep {item : ProjectionItem} {compiled : Compiled} {next : Progress}
      (compiles : draft.progress.compile item.expression = .ok (compiled, next))
      (unnamed : item.name = none) : Step draft (.give item) { draft with progress := next }
  | pass {predicate : Expression} {compiled : Compiled} {next : Progress}
      (compiles : draft.progress.compile predicate = .ok (compiled, next))
      (unaggregated : compiled.aggregates = false) :
      Step draft (.pass predicate)
        { draft with progress := { next with predicates := next.predicates.add compiled } }
  | list {item : ProjectionItem} {compiled : Compiled} {next : Progress}
      (compiles : draft.progress.compile item.expression = .ok (compiled, next)) :
      Step draft (.list item) ⟨next, draft.layout.add item compiled⟩

inductive Run : Draft → List Event → Draft → Prop where
  | nil (draft : Draft) : Run draft [] draft
  | cons {draft next final : Draft} {event : Event} {rest : List Event}
      (step : Step draft event next) (run : Run next rest final) : Run draft (event :: rest) final

namespace Run

variable {draft next final : Draft}

theorem single {event : Event} (step : Step draft event final) : Run draft [event] final :=
  .cons step (.nil final)

theorem append {first second : List Event} (run : Run draft first next)
    (runSecond : Run next second final) : Run draft (first ++ second) final := by
  induction run with
  | nil => exact runSecond
  | cons step _ ih => exact .cons step (ih runSecond)

/-- A fold over clauses is a run when each of its steps is one. -/
theorem of_foldlM {α ε : Type} {f : Progress → α → Except ε Progress} {events : α → List Event}
    {layout : Layout} {xs : List α}
    (runs : ∀ x progress after, f progress x = .ok after →
      Run ⟨progress, layout⟩ (events x) ⟨after, layout⟩)
    {progress after : Progress} (folded : xs.foldlM f progress = .ok after) :
    Run ⟨progress, layout⟩ (xs.flatMap events) ⟨after, layout⟩ :=
  foldlM_collects (R := fun events before later => Run ⟨before, layout⟩ events ⟨later, layout⟩)
    (fun _ => .nil _) (fun _ _ _ _ _ => append) (fun x _ => runs x) folded

end Run

/-! ## Clauses -/

variable {progress after : Progress} {layout : Layout}

theorem bindPatterns_run {graph : Graph} {patterns : List Pattern}
    (bound : bindPatterns progress.graph patterns = .ok graph) :
    Run ⟨progress, layout⟩ (patterns.map .mention) ⟨{ progress with graph }, layout⟩ := by
  induction patterns generalizing progress with
  | nil =>
    obtain rfl := pure_eq_ok.mp bound
    exact .nil _
  | cons pattern rest ih =>
    rw [bindPatterns, List.foldlM_cons] at bound
    obtain ⟨next, boundFirst, boundRest⟩ := bind_eq_ok.mp bound
    refine .cons (.mention boundFirst) (ih ?_)
    exact boundRest

theorem Progress.filter_run {predicate : Option Expression}
    (filtered : progress.filter predicate = .ok after) :
    Run ⟨progress, layout⟩ (predicate.toList.map .filter) ⟨after, layout⟩ := by
  cases predicate with
  | none =>
    obtain rfl := Except.ok.inj filtered
    exact .nil _
  | some predicate =>
    obtain ⟨⟨compiled, next⟩, compiles, result⟩ := bind_eq_ok.mp filtered
    obtain rfl := pure_eq_ok.mp result
    exact .single (.filter compiles)

theorem Progress.addMatch_run {clause : MatchClause}
    (added : progress.addMatch clause = .ok after) :
    Run ⟨progress, layout⟩ clause.events ⟨after, layout⟩ := by
  obtain ⟨graph, bound, filtered⟩ := bind_eq_ok.mp added
  exact (bindPatterns_run (mapError_eq_ok.mp bound)).append (Progress.filter_run filtered)

theorem Progress.addItem_run {item : ProjectionItem} (added : progress.addItem item = .ok after) :
    Run ⟨progress, layout⟩ [.give item] ⟨after, layout⟩ := by
  obtain ⟨⟨compiled, next⟩, compiles, result⟩ := bind_eq_ok.mp added
  dsimp only at result
  split at result
  · next name named =>
    obtain rfl := pure_eq_ok.mp result
    exact .single (.give compiles named)
  · next unnamed =>
    split at result
    · obtain rfl := pure_eq_ok.mp result
      exact .single (.keep compiles unnamed)
    · contradiction

theorem Progress.filterPassed_run {predicate : Option Expression}
    (filtered : progress.filterPassed predicate = .ok after) :
    Run ⟨progress, layout⟩ (predicate.toList.map .pass) ⟨after, layout⟩ := by
  cases predicate with
  | none =>
    obtain rfl := Except.ok.inj filtered
    exact .nil _
  | some predicate =>
    obtain ⟨⟨compiled, next⟩, compiles, result⟩ := bind_eq_ok.mp filtered
    dsimp only at result
    split at result
    · contradiction
    · next unaggregated =>
      obtain rfl := pure_eq_ok.mp result
      exact .single (.pass compiles (Bool.eq_false_iff.mpr unaggregated))

theorem Progress.addWith_run {clause : WithClause} (added : progress.addWith clause = .ok after) :
    Run ⟨progress, layout⟩ clause.events ⟨after, layout⟩ := by
  obtain ⟨next, items, filtered⟩ := bind_eq_ok.mp added
  have given : Run ⟨progress, layout⟩ (clause.items.flatMap fun item => [.give item])
      ⟨next, layout⟩ :=
    .of_foldlM (fun _ _ _ added => Progress.addItem_run added) items
  rw [← List.map_eq_flatMap] at given
  exact given.append (Progress.filterPassed_run filtered)

theorem layoutItems_run {result : Layout} {items : List ProjectionItem}
    (laid : layoutItems progress layout items = .ok (result, after)) :
    Run ⟨progress, layout⟩ (items.map .list) ⟨after, result⟩ := by
  induction items generalizing progress layout with
  | nil =>
    obtain ⟨rfl, rfl⟩ := Prod.mk.inj (Except.ok.inj laid)
    exact .nil _
  | cons item rest ih =>
    obtain ⟨⟨compiled, next⟩, compiles, laidRest⟩ := bind_eq_ok.mp laid
    exact .cons (.list compiles) (ih laidRest)

end Compilation

open Compilation

/-- The clauses of a query are a run of their events. -/
theorem Cypher.Query.run_clauses {settings : Settings} {query : Query} {progress : Progress}
    (progressed : query.progress settings = .ok progress) :
    Run (.start settings)
      (query.matchClauses.flatMap MatchClause.events ++ query.withClauses.flatMap WithClause.events)
      ⟨progress, .empty⟩ := by
  obtain ⟨matched, isMatched, passed⟩ := bind_eq_ok.mp progressed
  have matches' : Run (.start settings) (query.matchClauses.flatMap MatchClause.events)
      ⟨matched, .empty⟩ :=
    .of_foldlM (fun _ _ _ added => Progress.addMatch_run added) isMatched
  have passes : Run ⟨matched, .empty⟩ (query.withClauses.flatMap WithClause.events)
      ⟨progress, .empty⟩ :=
    .of_foldlM (fun _ _ _ added => Progress.addWith_run added) passed
  exact matches'.append passes

/-- The clauses and the items of a query are a run of its events. -/
theorem Cypher.Query.run_of_progress {settings : Settings} {query : Query}
    {progress after : Progress} {layout : Layout}
    (progressed : query.progress settings = .ok progress)
    (laid : layoutItems progress .empty query.returnClause.items = .ok (layout, after)) :
    Run (.start settings) query.events ⟨after, layout⟩ :=
  (Query.run_clauses progressed).append (layoutItems_run laid)

/-- A query that is accepted is a run of its events.  It lists the columns and filters by the
predicates of the draft at the end, whose graph has known labels only. -/
theorem Cypher.Query.run_ok {settings : Settings} {query : Query} {selection : Sql.Selection}
    {projections : List Projection}
    (selected : query.selection settings = .ok (selection, projections)) :
    ∃ progress final page, query.progress settings = .ok progress ∧
      progress.graph.unscoped = final.progress.graph.unscoped ∧
      Run (.start settings) query.events final ∧
      requireKnownLabels settings progress.graph = .ok () ∧
      selection =
        { distinct := query.returnClause.distinct
          columns := final.layout.columns
          sources := sourcesOf settings final.progress.graph
          joins := []
          condition := filterOf settings final.progress.graph final.progress.predicates
          grouping := final.layout.grouping
          aggregated := final.layout.aggregated
          page } := by
  obtain ⟨progress, layout, final, page, progressed, known, laid, _, rfl, _⟩ :=
    Query.selection_ok selected
  exact ⟨progress, ⟨final, layout⟩, page, progressed, (layoutItems_ok laid).1.symm,
    Query.run_of_progress progressed laid, known, rfl⟩

namespace Compilation

open CypherSql.Graph (properName)

/-! ## Sound drafts -/

/-- What holds of the progress where these names are known: they are the names that mean something,
and whatever a name was given to has the property. -/
structure Sound (settings : Settings) (P : Compiled → Prop) (known : Names)
    (progress : Progress) : Prop where
  settings : progress.bindings.settings = settings
  bound : ∀ name, name ∈ known.bound ↔ (progress.graph.slot? name).isSome = true
  given : ∀ name, name ∈ known.given ↔ (progress.bindings.find? name).isSome = true
  wellFormed : progress.graph.WellFormed
  compiled : progress.bindings.Given
  holds : ∀ name compiled, progress.bindings.find? name = some compiled → P compiled

theorem sound_start (settings : Settings) (P : Compiled → Prop) :
    Sound settings P .empty (.start settings) where
  settings := rfl
  bound _ := by simp [Names.empty, Progress.start, Graph.slot?, Graph.empty]
  given _ := by simp [Names.empty, Progress.start, Bindings.find?]
  wellFormed := Graph.wellFormed_empty
  compiled := .none settings
  holds _ _ isFound := nomatch isFound

theorem Sound.find?_eq_none {settings : Settings} {P : Compiled → Prop} {known : Names}
    {progress : Progress} (sound : Sound settings P known progress) (none : known.given = [])
    (name : String) : progress.bindings.find? name = .none := by
  have ungiven := sound.given name
  rw [none] at ungiven
  simpa using ungiven

theorem bindHops_names {graph after : Graph} {previous : Nat} {hops : List Hop}
    (bound : bindHops graph previous hops = .ok after) (given : String) :
    (after.slot? given).isSome = true ↔ (graph.slot? given).isSome = true ∨ ∃ hop ∈ hops,
      properName hop.node.name = some given ∨ properName hop.relationship.name = some given := by
  induction hops generalizing graph previous with
  | nil =>
    obtain rfl := Except.ok.inj bound
    simp
  | cons hop rest ih =>
    obtain ⟨⟨next, withNode⟩, nodeMentioned, bound⟩ := bind_eq_ok.mp bound
    obtain ⟨⟨relation, withRelation⟩, relationMentioned, bound⟩ := bind_eq_ok.mp bound
    rw [ih bound, Graph.isSome_slot?_of_mentionRelation relationMentioned,
      Graph.isSome_slot?_of_mentionNode nodeMentioned]
    simp [or_assoc]

/-- A pattern binds its variables, and no other name. -/
theorem bindPattern_names {graph after : Graph} {pattern : Pattern}
    (bound : bindPattern graph pattern = .ok after) (given : String) :
    (after.slot? given).isSome = true ↔
      (graph.slot? given).isSome = true ∨ given ∈ pattern.names := by
  obtain ⟨⟨start, withStart⟩, mentioned, bound⟩ := bind_eq_ok.mp bound
  rw [bindHops_names bound, Graph.isSome_slot?_of_mentionNode mentioned]
  simp only [Pattern.names, Pattern.nodes, Pattern.relationships, List.mem_filterMap,
    List.mem_append, List.mem_map, List.map_cons, List.mem_cons]
  constructor
  · rintro ((early | isStart) | ⟨hop, isHop, isNode | isRelationship⟩)
    · exact .inl early
    · exact .inr ⟨_, .inl (.inl rfl), isStart⟩
    · exact .inr ⟨_, .inl (.inr ⟨_, ⟨hop, isHop, rfl⟩, rfl⟩), isNode⟩
    · exact .inr ⟨_, .inr ⟨_, ⟨hop, isHop, rfl⟩, rfl⟩, isRelationship⟩
  · rintro (early | ⟨_, (rfl | ⟨_, ⟨hop, isHop, rfl⟩, rfl⟩) | ⟨_, ⟨hop, isHop, rfl⟩, rfl⟩, isGiven⟩)
    · exact .inl (.inl early)
    · exact .inl (.inr isGiven)
    · exact .inr ⟨hop, isHop, .inl isGiven⟩
    · exact .inr ⟨hop, isHop, .inr isGiven⟩

section

variable {settings : Settings} {P : Compiled → Prop} {known : Names}

/-- An expression changes nothing that matters. -/
theorem Sound.of_compile {progress next : Progress} (sound : Sound settings P known progress)
    {expression : Expression} {compiled : Compiled}
    (compiles : progress.compile expression = .ok (compiled, next)) :
    Sound settings P known next := by
  obtain ⟨same, sameBindings, -⟩ := Progress.compile_ok compiles
  constructor
  case settings => exact sameBindings ▸ sound.settings
  case bound => exact fun name => Graph.slot?_eq_of_unscoped same name ▸ sound.bound name
  case given => exact sameBindings ▸ sound.given
  case wellFormed => exact sound.wellFormed.of_unscoped same
  case compiled => exact sameBindings ▸ sound.compiled
  case holds => exact sameBindings ▸ sound.holds

theorem Sound.bind {progress next : Progress} (sound : Sound settings P known progress)
    {expression : Expression} {compiled : Compiled}
    (compiles : progress.compile expression = .ok (compiled, next)) (holds : P compiled)
    (name : String) :
    Sound settings P { known with given := known.given ++ [name] }
      { next with bindings := next.bindings.bind name compiled } := by
  have after := sound.of_compile compiles
  obtain ⟨state, ran, rfl⟩ := Progress.compile_run compiles
  constructor
  case settings => exact after.settings
  case bound => exact after.bound
  case given =>
    intro other
    rw [Bindings.find?_bind, List.mem_append, List.mem_singleton, after.given]
    by_cases same : name = other
    · simp [same]
    · simp [same, Ne.symm same]
  case wellFormed => exact after.wellFormed
  case compiled => exact sound.compiled.bind (congrArg Prod.fst ran) name
  case holds =>
    intro other found isFound
    rw [Bindings.find?_bind] at isFound
    split at isFound
    · obtain rfl := Option.some.inj isFound
      exact holds
    · exact after.holds other found isFound

theorem Sound.mention {progress : Progress} (sound : Sound settings P known progress)
    {pattern : Pattern} {graph : Graph} (bound : bindPattern progress.graph pattern = .ok graph) :
    Sound settings P { known with bound := known.bound ++ pattern.names }
      { progress with graph } where
  settings := sound.settings
  bound name := by rw [List.mem_append, sound.bound, bindPattern_names bound]
  given := sound.given
  wellFormed := bindPattern_wellFormed sound.wellFormed bound
  compiled := sound.compiled
  holds := sound.holds

theorem Step.sound {draft after : Draft} {event : Event} (step : Step draft event after)
    (sound : Sound settings P known draft.progress)
    (holds : ∀ expression, event.expression? = some expression → ∀ compiled next,
      draft.progress.compile expression = .ok (compiled, next) → P compiled) :
    Sound settings P (event.names known) after.progress := by
  cases step with
  | mention bound => exact sound.mention bound
  | filter compiles => exact { sound.of_compile compiles with }
  | give compiles named =>
    rw [Event.names, named]
    exact sound.bind compiles (holds _ rfl _ _ compiles) _
  | keep compiles unnamed =>
    rw [Event.names, unnamed]
    simpa using sound.of_compile compiles
  | pass compiles => exact { sound.of_compile compiles with }
  | list compiles => exact sound.of_compile compiles

end

/-! ## What stays -/

/-- Everything in the one draft is in the other. -/
structure Draft.Within (earlier later : Draft) : Prop where
  graph : earlier.progress.graph.Within later.progress.graph
  fragments : earlier.progress.predicates.fragments ⊆ later.progress.predicates.fragments
  columns : earlier.layout.columns ⊆ later.layout.columns

theorem Draft.Within.refl (draft : Draft) : draft.Within draft :=
  ⟨.of_unscoped rfl, List.Subset.refl _, List.Subset.refl _⟩

theorem Draft.Within.trans {first second third : Draft} (left : first.Within second)
    (right : second.Within third) : first.Within third :=
  ⟨left.graph.trans right.graph, List.Subset.trans left.fragments right.fragments,
    List.Subset.trans left.columns right.columns⟩

theorem bindHops_extends {graph after : Graph} {previous : Nat} {hops : List Hop}
    (bound : bindHops graph previous hops = .ok after) : graph.Extends after := by
  induction hops generalizing graph previous with
  | nil =>
    obtain rfl := Except.ok.inj bound
    exact .refl graph
  | cons hop rest ih =>
    obtain ⟨⟨next, withNode⟩, nodeMentioned, bound⟩ := bind_eq_ok.mp bound
    obtain ⟨⟨relation, withRelation⟩, relationMentioned, bound⟩ := bind_eq_ok.mp bound
    have nodeExtends := Graph.Extends.change (Graph.change_of_mentionNode nodeMentioned)
    have relationExtends := Graph.Extends.change (Graph.change_of_mentionRelation relationMentioned)
    exact (nodeExtends.trans relationExtends).trans (ih bound)

theorem bindPattern_extends {graph after : Graph} {pattern : Pattern}
    (bound : bindPattern graph pattern = .ok after) : graph.Extends after := by
  obtain ⟨⟨start, withStart⟩, mentioned, bound⟩ := bind_eq_ok.mp bound
  have startExtends := Graph.Extends.change (Graph.change_of_mentionNode mentioned)
  exact startExtends.trans (bindHops_extends bound)

theorem Step.within {draft after : Draft} {event : Event} (step : Step draft event after) :
    draft.Within after := by
  cases step with
  | mention bound =>
    exact { Draft.Within.refl draft with graph := .of_extends (bindPattern_extends bound) }
  | filter compiles | pass compiles =>
    obtain ⟨same, -, samePredicates⟩ := Progress.compile_ok compiles
    exact ⟨.of_unscoped same, samePredicates ▸ List.subset_append_left _ _, List.Subset.refl _⟩
  | give compiles | keep compiles =>
    obtain ⟨same, -, samePredicates⟩ := Progress.compile_ok compiles
    exact ⟨.of_unscoped same, samePredicates ▸ List.Subset.refl _, List.Subset.refl _⟩
  | list compiles =>
    obtain ⟨same, -, samePredicates⟩ := Progress.compile_ok compiles
    exact ⟨.of_unscoped same, samePredicates ▸ List.Subset.refl _, List.subset_append_left _ _⟩

theorem Run.within {draft final : Draft} {events : List Event} (run : Run draft events final) :
    draft.Within final := by
  induction run with
  | nil draft => exact .refl draft
  | cons step _ ih => exact step.within.trans ih

/-! ## Where things come from -/

/-- A predicate is added by the predicate of a clause. -/
theorem Step.fragment_origin {draft after : Draft} {event : Event} (step : Step draft event after)
    {fragment : Fragment} (isOne : fragment ∈ after.progress.predicates.fragments) :
    fragment ∈ draft.progress.predicates.fragments ∨ ∃ predicate compiled next,
      (event = .filter predicate ∨ event = .pass predicate ∧ compiled.aggregates = false) ∧
        draft.progress.compile predicate = .ok (compiled, next) ∧
        fragment = compiled.conjunct := by
  cases step with
  | mention => exact .inl isOne
  | @filter predicate compiled next compiles =>
    rw [← (Progress.compile_ok compiles).2.2]
    refine (List.mem_append.mp isOne).imp_right fun added => ?_
    exact ⟨predicate, compiled, next, .inl rfl, compiles, List.mem_singleton.mp added⟩
  | @pass predicate compiled next compiles unaggregated =>
    rw [← (Progress.compile_ok compiles).2.2]
    refine (List.mem_append.mp isOne).imp_right fun added => ?_
    exact ⟨predicate, compiled, next, .inr ⟨rfl, unaggregated⟩, compiles,
      List.mem_singleton.mp added⟩
  | give compiles | keep compiles | list compiles =>
    exact .inl ((Progress.compile_ok compiles).2.2 ▸ isOne)

/-- A column is added by an item of `RETURN`. -/
theorem Step.column_origin {draft after : Draft} {event : Event} (step : Step draft event after)
    {column : Column} (isOne : column ∈ after.layout.columns) :
    column ∈ draft.layout.columns ∨ ∃ item compiled next, event = .list item ∧
      draft.progress.compile item.expression = .ok (compiled, next) ∧
      column ∈ (Layout.columnsOf item compiled).1 := by
  cases step with
  | mention | filter | give | keep | pass => exact .inl isOne
  | @list item compiled next compiles =>
    refine (List.mem_append.mp isOne).imp_right fun added => ?_
    exact ⟨item, compiled, next, rfl, compiles, added⟩

theorem Step.compiles {draft after : Draft} {event : Event} (step : Step draft event after)
    {expression : Expression} (isOne : event.expression? = some expression) :
    ∃ compiled next, draft.progress.compile expression = .ok (compiled, next) := by
  cases step with
  | mention => contradiction
  | filter compiles | pass compiles | give compiles | keep compiles | list compiles =>
    obtain rfl := Option.some.inj isOne
    exact ⟨_, _, compiles⟩

/-- What a predicate or an item of `RETURN` compiles to is added. -/
theorem Step.shown {draft after : Draft} {event : Event} (step : Step draft event after)
    (isShown : event.isShown = true) : ∃ expression compiled next,
      event.expression? = some expression ∧
      draft.progress.compile expression = .ok (compiled, next) ∧
      (compiled.conjunct ∈ after.progress.predicates.fragments ∨
        ∃ item, (Layout.columnsOf item compiled).1 ⊆ after.layout.columns) := by
  cases step with
  | mention | give | keep => contradiction
  | filter compiles | pass compiles =>
    exact ⟨_, _, _, rfl, compiles, .inl (by simp [Predicates.add])⟩
  | list compiles =>
    exact ⟨_, _, _, rfl, compiles, .inr ⟨_, List.subset_append_right _ _⟩⟩

/-- The predicate of a `MATCH` is added. -/
theorem Step.fragment_mem {draft after : Draft} {predicate : Expression}
    (step : Step draft (.filter predicate) after) : ∃ compiled next,
      draft.progress.compile predicate = .ok (compiled, next) ∧
      compiled.conjunct ∈ after.progress.predicates.fragments := by
  cases step with
  | filter compiles => exact ⟨_, _, compiles, by simp [Predicates.add]⟩

/-! ## Runs -/

/-- Wherever the event of a stage takes effect on the way to the final draft, what it compiles has
the property. -/
def Upholds (settings : Settings) (P : Compiled → Prop) (final : Draft) (stage : Stage) : Prop :=
  ∀ draft : Draft, Sound settings P stage.known draft.progress → draft.Within final →
    ∀ expression, stage.event.expression? = some expression → ∀ compiled next,
      draft.progress.compile expression = .ok (compiled, next) → P compiled

/-- The event of a stage takes effect on the sound draft that the earlier events lead to, on the
way to the final one. -/
structure Passed (settings : Settings) (P : Compiled → Prop) (final : Draft) (stage : Stage)
    (draft after : Draft) : Prop where
  reached : Run (.start settings) stage.earlier draft
  step : Step draft stage.event after
  sound : Sound settings P stage.known draft.progress
  within : after.Within final

theorem Passed.within_before {settings : Settings} {P : Compiled → Prop} {stage : Stage}
    {before after final : Draft} (passed : Passed settings P final stage before after) :
    before.Within final :=
  passed.step.within.trans passed.within

section

variable {settings : Settings} {P : Compiled → Prop} {earlier events : List Event}
  {draft final : Draft} (run : Run draft events final)
  (reached : Run (.start settings) earlier draft)
  (sound : Sound settings P (namesAfter earlier) draft.progress)
  (upholds : ∀ stage ∈ stagesFrom earlier events, Upholds settings P final stage)

include run reached sound upholds

/-- Every stage is passed. -/
theorem Run.stage {stage : Stage} (isOne : stage ∈ stagesFrom earlier events) :
    ∃ before after, Passed settings P final stage before after := by
  induction run generalizing earlier with
  | nil => contradiction
  | @cons draft next final event rest step run ih =>
    obtain ⟨ofFirst, ofRest⟩ := List.forall_mem_cons.mp upholds
    rcases List.mem_cons.mp isOne with rfl | later
    · exact ⟨draft, next, reached, step, sound, run.within⟩
    · have soundNext := step.sound sound (ofFirst draft sound (step.within.trans run.within))
      rw [← namesAfter_concat] at soundNext
      exact ih (reached.append (.single step)) soundNext ofRest later

/-- A predicate at the end of a run is one of the start, or that of a stage. -/
theorem Run.fragment_origin {fragment : Fragment}
    (isOne : fragment ∈ final.progress.predicates.fragments) :
    fragment ∈ draft.progress.predicates.fragments ∨
      ∃ stage ∈ stagesFrom earlier events, ∃ before after predicate compiled next,
        Passed settings P final stage before after ∧
          (stage.event = .filter predicate ∨
            stage.event = .pass predicate ∧ compiled.aggregates = false) ∧
          before.progress.compile predicate = .ok (compiled, next) ∧
          fragment = compiled.conjunct := by
  induction run generalizing earlier with
  | nil => exact .inl isOne
  | @cons draft next final event rest step run ih =>
    obtain ⟨ofFirst, ofRest⟩ := List.forall_mem_cons.mp upholds
    have soundNext := step.sound sound (ofFirst draft sound (step.within.trans run.within))
    rw [← namesAfter_concat] at soundNext
    rcases ih (reached.append (.single step)) soundNext ofRest isOne with
      early | ⟨stage, isStage, later⟩
    · refine (step.fragment_origin early).imp_right ?_
      rintro ⟨predicate, compiled, after, isPredicate, compiles, same⟩
      exact ⟨⟨earlier, event⟩, List.mem_cons_self, draft, next, predicate, compiled, after,
        ⟨reached, step, sound, run.within⟩, isPredicate, compiles, same⟩
    · exact .inr ⟨stage, List.mem_cons_of_mem _ isStage, later⟩

/-- A column at the end of a run is one of the start, or one of the item of a stage. -/
theorem Run.column_origin {column : Column} (isOne : column ∈ final.layout.columns) :
    column ∈ draft.layout.columns ∨
      ∃ stage ∈ stagesFrom earlier events, ∃ before after item compiled next,
        Passed settings P final stage before after ∧ stage.event = .list item ∧
          before.progress.compile item.expression = .ok (compiled, next) ∧
          column ∈ (Layout.columnsOf item compiled).1 := by
  induction run generalizing earlier with
  | nil => exact .inl isOne
  | @cons draft next final event rest step run ih =>
    obtain ⟨ofFirst, ofRest⟩ := List.forall_mem_cons.mp upholds
    have soundNext := step.sound sound (ofFirst draft sound (step.within.trans run.within))
    rw [← namesAfter_concat] at soundNext
    rcases ih (reached.append (.single step)) soundNext ofRest isOne with
      early | ⟨stage, isStage, later⟩
    · refine (step.column_origin early).imp_right ?_
      rintro ⟨item, compiled, after, isItem, compiles, isColumn⟩
      exact ⟨⟨earlier, event⟩, List.mem_cons_self, draft, next, item, compiled, after,
        ⟨reached, step, sound, run.within⟩, isItem, compiles, isColumn⟩
    · exact .inr ⟨stage, List.mem_cons_of_mem _ isStage, later⟩

end

/-! ## Whole queries -/

section

variable {settings : Settings} {P : Compiled → Prop} {query : Query} {final : Draft}
  (run : Run (.start settings) query.events final)

theorem upholds_true (stage : Stage) : Upholds settings (fun _ => True) final stage :=
  fun _ _ _ _ _ _ _ _ => trivial

include run

theorem Run.passed (upholds : ∀ stage ∈ query.stages, Upholds settings P final stage)
    {stage : Stage} (isStage : stage ∈ query.stages) :
    ∃ before after, Passed settings P final stage before after :=
  run.stage (.nil _) (sound_start settings P) upholds isStage

/-- Every predicate of a query is that of a stage. -/
theorem Run.predicate_origin (upholds : ∀ stage ∈ query.stages, Upholds settings P final stage)
    {fragment : Fragment} (isOne : fragment ∈ final.progress.predicates.fragments) :
    ∃ stage ∈ query.stages, ∃ before after predicate compiled next,
      Passed settings P final stage before after ∧
        (stage.event = .filter predicate ∨
          stage.event = .pass predicate ∧ compiled.aggregates = false) ∧
        before.progress.compile predicate = .ok (compiled, next) ∧
        fragment = compiled.conjunct :=
  (run.fragment_origin (.nil _) (sound_start settings P) upholds isOne).resolve_left nofun

/-- Every column of a query is one of the item of a stage. -/
theorem Run.item_origin (upholds : ∀ stage ∈ query.stages, Upholds settings P final stage)
    {column : Column} (isOne : column ∈ final.layout.columns) :
    ∃ stage ∈ query.stages, ∃ before after item compiled next,
      Passed settings P final stage before after ∧ stage.event = .list item ∧
        before.progress.compile item.expression = .ok (compiled, next) ∧
        column ∈ (Layout.columnsOf item compiled).1 :=
  (run.column_origin (.nil _) (sound_start settings P) upholds isOne).resolve_left nofun

end

end Compilation

end CypherSql
