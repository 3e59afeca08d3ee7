import CypherSql.Proofs.Compilation.Couplings
import CypherSql.Proofs.Compilation.Runs

/-! # Two runs of a query

A query, and the same query under other names and with the optimization of directions on or off, are
compiled side by side, clause by clause.  Names that `WITH` gives are known behind all patterns of
`MATCH` only, where a name that is no variable cannot become one any more.

* `CompilationError.anonymous` — an error without the names and texts that it quotes.
* `Progress.Follows`, `Layout.Follows` — what the two have come to.
* `Progress.Follows.compile` — an expression of a clause.
* `Query.progress_rename` — the clauses before `RETURN`.
* `Query.selection_rename` — what the two queries select.
-/

namespace CypherSql

open CypherSql.Cypher
open CypherSql.Graph (BindingError KeepsApart RenamedTo)
open CypherSql.Sql (Column Fragment GenerationError Lexeme)

/-! ## Errors without names -/

/-- The error without the names of variables and the texts of expressions. -/
def CompilationError.anonymous : CompilationError → CompilationError
  | binding error => .binding error.anonymous
  | generation error => .generation error.anonymous
  | error => error

theorem CompilationError.anonymous_ofGeneration {error other : GenerationError}
    (same : other.anonymous = error.anonymous) :
    (ofGeneration other).anonymous = (ofGeneration error).anonymous := by
  cases error <;> cases other <;> simp_all [Sql.GenerationError.anonymous, ofGeneration, anonymous]

/-! ## Parts of a query -/

namespace Cypher

theorem mem_events_of_match {query : Query} {clause : MatchClause}
    (isClause : clause ∈ query.matchClauses) {event : Event} (isOne : event ∈ clause.events) :
    event ∈ query.events :=
  List.mem_append_left _ (List.mem_append_left _ (List.mem_flatMap.mpr ⟨clause, isClause, isOne⟩))

theorem mem_events_of_with {query : Query} {clause : WithClause}
    (isClause : clause ∈ query.withClauses) {event : Event} (isOne : event ∈ clause.events) :
    event ∈ query.events :=
  List.mem_append_left _ (List.mem_append_right _ (List.mem_flatMap.mpr ⟨clause, isClause, isOne⟩))

end Cypher

namespace Compilation

theorem within_mentions {query : Query} {event : Event} (isOne : event ∈ query.events) :
    Within query.mentions event.ingredients := by
  intro part isPart name isName
  refine List.mem_flatMap.mpr ⟨event, isOne, ?_⟩
  cases event with
  | mention => contradiction
  | filter | give | pass | list => exact List.mem_flatMap.mpr ⟨part, isPart, isName⟩

/-! ## Patterns of `MATCH` -/

section

variable {σ : String → String} {names : List String} (apart : KeepsApart σ names)
  {graph graph' : Graph}

include apart

theorem bindHops_renamed {hops : List Hop}
    (areNames : ∀ hop ∈ hops, (∀ given ∈ hop.node.name, given ∈ names) ∧
      ∀ given ∈ hop.relationship.name, given ∈ names) (previous : Nat)
    (renamed : RenamedTo σ names graph graph') :
    Alike BindingError.anonymous (RenamedTo σ names) (bindHops graph previous hops)
      (bindHops graph' previous (hops.map (Hop.rename σ))) := by
  induction hops generalizing graph graph' previous with
  | nil => exact .ok renamed
  | cons hop rest ih =>
    obtain ⟨⟨ofNode, ofRelationship⟩, ofRest⟩ := List.forall_mem_cons.mp areNames
    apply (renamed.mentionNode apart ofNode _ _).bind
    rintro ⟨next, graph⟩ ⟨next', graph'⟩ ⟨sameNext, renamed⟩
    obtain rfl : next' = next := sameNext
    apply (renamed.mentionRelation apart ofRelationship _ previous next' _ _).bind
    rintro ⟨index, graph⟩ ⟨index', graph'⟩ ⟨-, renamed⟩
    exact ih ofRest next' renamed

theorem bindPattern_renamed {pattern : Pattern}
    (areNames : ∀ name ∈ pattern.mentions, name ∈ names)
    (renamed : RenamedTo σ names graph graph') :
    Alike BindingError.anonymous (RenamedTo σ names) (bindPattern graph pattern)
      (bindPattern graph' (pattern.rename σ)) := by
  obtain ⟨ofNode, ofHops⟩ := Pattern.forall_mem_mentions.mp areNames
  apply (renamed.mentionNode apart ofNode _ _).bind
  rintro ⟨start, graph⟩ ⟨start', graph'⟩ ⟨sameStart, renamed⟩
  obtain rfl : start' = start := sameStart
  exact bindHops_renamed apart ofHops start' renamed

theorem bindPatterns_renamed {patterns : List Pattern}
    (areNames : ∀ pattern ∈ patterns, ∀ name ∈ pattern.mentions, name ∈ names)
    (renamed : RenamedTo σ names graph graph') :
    Alike BindingError.anonymous (RenamedTo σ names) (bindPatterns graph patterns)
      (bindPatterns graph' (patterns.map (Pattern.rename σ))) := by
  refine Alike.foldlM_map _ ?_ renamed
  intro pattern isOne graph graph' renamed
  exact bindPattern_renamed apart (areNames pattern isOne) renamed

end

/-- The patterns of a clause bind their variables, and no other name. -/
theorem bindPatterns_names {graph after : Graph} {patterns : List Pattern}
    (bound : bindPatterns graph patterns = .ok after) (given : String) :
    (after.slot? given).isSome = true ↔
      (graph.slot? given).isSome = true ∨ given ∈ patterns.flatMap Pattern.names := by
  refine foldlM_collects
    (R := fun names before later => (later.slot? given).isSome = true ↔
      (before.slot? given).isSome = true ∨ given ∈ names)
    (fun _ => by simp)
    (fun _ _ _ _ _ first second => by rw [second, first, List.mem_append, or_assoc])
    (fun pattern _ before later bound => bindPattern_names bound given) bound

/-! ## Terms -/

section

variable (σ : String → String) (expression : Expression)

theorem isBareName_rename : isBareName (expression.rename σ) = isBareName expression := by
  unfold isBareName
  rw [Expression.term?_rename]
  rcases expression.term? with _ | ⟨atom, path⟩
  · rfl
  · cases atom <;> cases path <;> rfl

theorem integerOf?_rename : integerOf? (expression.rename σ) = integerOf? expression := by
  unfold integerOf?
  rw [Expression.term?_rename]
  rcases expression.term? with _ | ⟨atom, path⟩
  · rfl
  · cases atom <;> rfl

theorem pageOf_rename (body : ReturnClause) : pageOf (body.rename σ) = pageOf body := by
  have number : ∀ clause expression,
      pageNumber clause (Option.map (Expression.rename σ) expression) =
        pageNumber clause expression := by
    rintro clause (_ | expression)
    · rfl
    · simp only [pageNumber, Option.map_some, integerOf?_rename]
  unfold pageOf
  simp only [ReturnClause.rename, number, Option.isSome_map, Option.isNone_map]

end

/-! ## Progress -/

/-- The same predicates under other names. -/
def Predicates.rename (σ : String → String) (predicates : Predicates) : Predicates :=
  { predicates with fragments := predicates.fragments.map (Fragment.rename σ) }

theorem Predicates.add_rename (σ : String → String) (predicates : Predicates)
    (compiled : Compiled) :
    (predicates.rename σ).add (compiled.rename σ) = (predicates.add compiled).rename σ := by
  rw [rename, add, add, rename, List.map_append, Compiled.conjunct_rename]
  rfl

theorem Predicates.rename_id (predicates : Predicates) : predicates.rename id = predicates := by
  rw [rename, map_rename_id fragment_rename_id]

namespace Progress

/-- The progress of a query under other names follows that of the query. -/
structure Follows (σ : String → String) (names : List String) (progress progress' : Progress) :
    Prop where
  twins : Twins σ names progress.bindings progress'.bindings
  paired : Paired σ names progress.bindings progress'.bindings
    ⟨progress.graph, progress.nextPattern⟩ ⟨progress'.graph, progress'.nextPattern⟩
  predicates : progress'.predicates = progress.predicates.rename σ

/-- All variables of slots are bound. -/
def Bound (query : Query) (progress : Progress) : Prop :=
  ∀ name ∈ query.variables, (progress.graph.slot? name).isSome = true

theorem Bound.of_sameGraph {query : Query} {progress after : Progress}
    (bound : Bound query progress) (same : SameGraph progress after) : Bound query after := by
  intro name isVariable
  rw [Graph.slot?_eq_of_unscoped same]
  exact bound name isVariable

section

variable {σ : String → String} {names : List String} {progress progress' : Progress}

theorem Follows.graph (follows : Follows σ names progress progress') :
    RenamedTo σ names progress.graph progress'.graph :=
  follows.paired.graph

theorem Follows.compile (follows : Follows σ names progress progress') {expression : Expression}
    (within : Within names expression.ingredients) :
    Alike CompilationError.anonymous
      (fun result result' => result'.1 = result.1.rename σ ∧ Follows σ names result.2 result'.2)
      (progress.compile expression) (progress'.compile (expression.rename σ)) := by
  have behind := compile_couples follows.twins.coupling expression within _ _ follows.paired
  unfold Progress.compile
  dsimp only
  generalize (Compilation.compile progress.bindings expression).run.run
    ⟨progress.graph, progress.nextPattern⟩ = outcome at behind ⊢
  generalize (Compilation.compile progress'.bindings (expression.rename σ)).run.run
    ⟨progress'.graph, progress'.nextPattern⟩ = outcome' at behind ⊢
  obtain ⟨value, state⟩ := outcome
  obtain ⟨value', state'⟩ := outcome'
  obtain ⟨alike, paired⟩ := behind
  cases alike with
  | error same => exact .error (CompilationError.anonymous_ofGeneration same)
  | ok related => exact .ok ⟨related, { follows with paired }⟩

theorem Follows.add {compiled : Compiled} (follows : Follows σ names progress progress') :
    Follows σ names { progress with predicates := progress.predicates.add compiled }
      { progress' with predicates := progress'.predicates.add (compiled.rename σ) } :=
  { follows with
    predicates := by rw [follows.predicates, Predicates.add_rename] }

theorem Follows.filter (follows : Follows σ names progress progress')
    {predicate : Option Expression}
    (within : ∀ expression ∈ predicate, Within names expression.ingredients) :
    Alike CompilationError.anonymous (Follows σ names) (progress.filter predicate)
      (progress'.filter (predicate.map (Expression.rename σ))) := by
  cases predicate with
  | none => exact .ok follows
  | some predicate =>
    apply (follows.compile (within predicate rfl)).bind
    rintro ⟨compiled, next⟩ ⟨_, next'⟩ ⟨rfl, follows⟩
    exact .ok follows.add

theorem Follows.filterPassed (follows : Follows σ names progress progress')
    {predicate : Option Expression}
    (within : ∀ expression ∈ predicate, Within names expression.ingredients) :
    Alike CompilationError.anonymous (Follows σ names) (progress.filterPassed predicate)
      (progress'.filterPassed (predicate.map (Expression.rename σ))) := by
  cases predicate with
  | none => exact .ok follows
  | some predicate =>
    apply (follows.compile (within predicate rfl)).bind
    rintro ⟨compiled, next⟩ ⟨_, next'⟩ ⟨rfl, follows⟩
    have same : (compiled.rename σ).aggregates = compiled.aggregates := rfl
    dsimp only
    rw [same]
    split
    · exact .error rfl
    · exact .ok follows.add

/-- A name that nothing binds after patterns were added was bound by nothing before. -/
theorem Follows.mention {graph graph' : Graph} {patterns : List Pattern}
    (follows : Follows σ names progress progress')
    (bound : bindPatterns progress.graph patterns = .ok graph)
    (renamed : RenamedTo σ names graph graph') :
    Follows σ names { progress with graph } { progress' with graph := graph' } :=
  { follows with
    paired :=
      { follows.paired with
        graph := renamed
        given := by
          intro name isName unbound
          apply follows.paired.given name isName
          rw [← Option.not_isSome_iff_eq_none]
          intro before
          have after := (bindPatterns_names bound name).mpr (.inl before)
          simp [unbound] at after } }

theorem Follows.addMatch {query : Query} (follows : Follows σ query.mentions progress progress')
    {clause : MatchClause} (isClause : clause ∈ query.matchClauses) :
    Alike CompilationError.anonymous (Follows σ query.mentions) (progress.addMatch clause)
      (progress'.addMatch (clause.rename σ)) := by
  have isEvent : ∀ event ∈ clause.events, event ∈ query.events :=
    fun event => mem_events_of_match isClause
  obtain ⟨areMentions, areFilters⟩ := List.forall_mem_append.mp isEvent
  have patterns : ∀ pattern ∈ clause.patterns, ∀ name ∈ pattern.mentions, name ∈ query.mentions :=
    fun pattern isPattern name isName => List.mem_flatMap.mpr
      ⟨.mention pattern, areMentions _ (List.mem_map_of_mem isPattern), isName⟩
  have binds := (bindPatterns_renamed follows.twins.apart patterns follows.graph).and_left
    fun _ bound => bound
  apply (binds.mapError fun _ _ same => congrArg CompilationError.binding same).bind
  rintro graph graph' ⟨renamed, bound⟩
  apply (follows.mention bound renamed).filter
  intro predicate isPredicate
  exact within_mentions (areFilters _ (List.mem_map_of_mem (Option.mem_toList.mpr isPredicate)))

end

section

variable {σ : String → String} {query : Query} (renames : query.Renaming σ)
  {progress progress' : Progress}

include renames

/-- A name that is given stands for the same in both queries. -/
theorem Follows.bind (follows : Follows σ query.mentions progress progress')
    (bound : Bound query progress) {name : String} (isAlias : name ∈ query.aliases)
    (compiled : Compiled) :
    Follows σ query.mentions { progress with bindings := progress.bindings.bind name compiled }
      { progress' with bindings := progress'.bindings.bind name (compiled.rename σ) } :=
  { follows with
    twins := { follows.twins with }
    paired :=
      { follows.paired with
        given := by
          intro other isName unbound
          -- The name that is given may be a variable too, but then it means a slot in both queries.
          have isOther : other ∉ query.variables := by
            intro isVariable
            have isBound := bound other isVariable
            simp [unbound] at isBound
          have same : name = σ other ↔ name = other := by
            have fixes := renames.fixes other isName isOther
            constructor
            · rintro rfl
              exact fixes (.inr isAlias)
            · rintro rfl
              exact (fixes (.inl isAlias)).symm
          have before := follows.paired.given other isName unbound
          rw [Bindings.find?_bind, Bindings.find?_bind, before]
          simp only [same]
          split <;> rfl } }

theorem Follows.addItem (follows : Follows σ query.mentions progress progress')
    (bound : Bound query progress) {item : ProjectionItem}
    (within : Within query.mentions item.expression.ingredients)
    (isAlias : ∀ name ∈ item.name, name ∈ query.aliases) :
    Alike CompilationError.anonymous
      (fun after after' => Follows σ query.mentions after after' ∧ Bound query after)
      (progress.addItem item) (progress'.addItem (item.rename σ)) := by
  have keeps : ∀ after, progress.addItem item = .ok after → Bound query after := by
    intro after added
    obtain ⟨_, _, _, same, _⟩ := Progress.addItem_ok added
    exact bound.of_sameGraph same
  refine Alike.and_left keeps ?_
  have compiles := (follows.compile within).and_left fun result compiles =>
    bound.of_sameGraph (Progress.compile_ok compiles).1
  apply compiles.bind
  rintro ⟨compiled, next⟩ ⟨_, next'⟩ ⟨⟨rfl, follows⟩, bound⟩
  have sameName : (item.rename σ).name = item.name := rfl
  dsimp only
  rw [sameName]
  cases isName : item.name with
  | some name => exact .ok (follows.bind renames bound (isAlias name isName) compiled)
  | none =>
    dsimp only
    rw [ProjectionItem.rename, isBareName_rename]
    split
    · exact .ok follows
    · exact .error rfl

theorem Follows.addWith (follows : Follows σ query.mentions progress progress')
    (bound : Bound query progress) {clause : WithClause} (isClause : clause ∈ query.withClauses) :
    Alike CompilationError.anonymous
      (fun after after' => Follows σ query.mentions after after' ∧ Bound query after)
      (progress.addWith clause) (progress'.addWith (clause.rename σ)) := by
  have within : ∀ event ∈ clause.events, Within query.mentions event.ingredients :=
    fun event isOne => within_mentions (mem_events_of_with isClause isOne)
  obtain ⟨items, predicates⟩ := List.forall_mem_append.mp within
  have aliases : ∀ item ∈ clause.items, ∀ name ∈ item.name, name ∈ query.aliases :=
    fun item isItem name isName => List.mem_flatMap.mpr
      ⟨clause, isClause, List.mem_filterMap.mpr ⟨item, isItem, isName⟩⟩
  have keeps : ∀ after, progress.addWith clause = .ok after → Bound query after :=
    fun after added => bound.of_sameGraph (Progress.addWith_sameGraph added)
  refine Alike.and_left keeps ?_
  have given : Alike CompilationError.anonymous
      (fun after after' => Follows σ query.mentions after after' ∧ Bound query after)
      (clause.items.foldlM Progress.addItem progress)
      ((clause.items.map (ProjectionItem.rename σ)).foldlM Progress.addItem progress') := by
    refine Alike.foldlM_map _ ?_ ⟨follows, bound⟩
    rintro item isItem next next' ⟨follows, bound⟩
    exact follows.addItem renames bound (items _ (List.mem_map_of_mem isItem)) (aliases item isItem)
  apply given.bind
  rintro next next' ⟨follows, -⟩
  apply follows.filterPassed
  intro expression isPredicate
  exact predicates _ (List.mem_map_of_mem (Option.mem_toList.mpr isPredicate))

end

end Progress

/-! ## Results -/

/-- An item is called what it is, or what its text is under other names. -/
structure ProjectionFollows (σ : String → String) (projection projection' : Projection) : Prop where
  kind : projection'.kind = projection.kind
  name : ∃ item : ProjectionItem, projection.name = Layout.itemName item ∧
    projection'.name = Layout.itemName (item.rename σ)

theorem kinds_eq_of_follows {σ : String → String} {projections projections' : List Projection}
    (follows : List.Forall₂ (ProjectionFollows σ) projections projections') :
    projections'.map Projection.kind = projections.map Projection.kind := by
  induction follows with
  | nil => rfl
  | cons first _ ih => exact congrArg₂ List.cons first.kind ih

theorem projections_eq_of_follows {projections projections' : List Projection}
    (follows : List.Forall₂ (ProjectionFollows id) projections projections') :
    projections' = projections := by
  induction follows with
  | nil => rfl
  | @cons projection projection' _ _ first _ ih =>
    obtain ⟨kind, item, name, name'⟩ := first
    rw [ProjectionItem.rename_id, ← name] at name'
    have same : projection' = projection := by
      cases projection
      cases projection'
      exact congrArg₂ Projection.mk name' kind
    rw [same, ih]

namespace Layout

/-- The same column under other names. -/
def renameColumn (σ : String → String) (column : Column) : Column :=
  { column with expression := column.expression.rename σ }

theorem renameColumn_id (column : Column) : renameColumn id column = column := by
  rw [renameColumn, fragment_rename_id]

/-- The columns of items under other names. -/
structure Follows (σ : String → String) (layout layout' : Layout) : Prop where
  columns : layout'.columns = layout.columns.map (renameColumn σ)
  keys : layout'.keys = layout.keys
  aggregated : layout'.aggregated = layout.aggregated
  projections : List.Forall₂ (ProjectionFollows σ) layout.projections layout'.projections

theorem columnsOf_rename (σ : String → String) (item : ProjectionItem) (compiled : Compiled) :
    columnsOf (item.rename σ) (compiled.rename σ) =
      ((columnsOf item compiled).1.map (renameColumn σ), (columnsOf item compiled).2) := by
  obtain ⟨sql, kind, columns, slot, aggregate, aggregates, reads, disjunctive⟩ := compiled
  cases aggregate with
  | some aggregate => rfl
  | none =>
    cases aggregates with
    | true => rfl
    | false =>
      rcases columns with _ | ⟨first, _ | ⟨second, rest⟩⟩
      · rfl
      · rfl
      · simp [columnsOf, Compiled.rename, renameColumn, Column.plain, Function.comp_def]

theorem Follows.add {σ : String → String} {layout layout' : Layout}
    (follows : Follows σ layout layout') (item : ProjectionItem) (compiled : Compiled) :
    Follows σ (layout.add item compiled) (layout'.add (item.rename σ) (compiled.rename σ)) := by
  have projections := List.rel_append follows.projections
    (.cons (⟨rfl, item, rfl, rfl⟩ : ProjectionFollows σ ⟨itemName item, compiled.kind⟩
      ⟨itemName (item.rename σ), (compiled.rename σ).kind⟩) .nil)
  unfold Layout.add
  rw [columnsOf_rename, follows.columns, follows.keys, follows.aggregated]
  exact ⟨by simp, by simp, rfl, projections⟩

end Layout

section

variable {σ : String → String} {names : List String} {progress progress' : Progress}

theorem layoutItems_rename (follows : Progress.Follows σ names progress progress')
    {layout layout' : Layout} (laid : Layout.Follows σ layout layout') {items : List ProjectionItem}
    (within : ∀ item ∈ items, Within names item.expression.ingredients) :
    Alike CompilationError.anonymous
      (fun result result' => Layout.Follows σ result.1 result'.1 ∧
        Progress.Follows σ names result.2 result'.2)
      (layoutItems progress layout items)
      (layoutItems progress' layout' (items.map (ProjectionItem.rename σ))) := by
  induction items generalizing progress progress' layout layout' with
  | nil => exact .ok ⟨laid, follows⟩
  | cons item rest ih =>
    obtain ⟨first, others⟩ := List.forall_mem_cons.mp within
    apply (follows.compile first).bind
    rintro ⟨compiled, next⟩ ⟨_, next'⟩ ⟨rfl, follows⟩
    exact ih follows (laid.add item compiled) others

end

end Compilation

/-! ## Whole queries -/

/-- The settings with the optimization on or off. -/
def Settings.optimizing (settings : Settings) (optimize : Bool) : Settings :=
  { settings with optimizeEitherDirection := optimize }

open Compilation

section

variable {σ : String → String} {query : Query}

theorem Compilation.addMatch_names {progress after : Progress} {clause : MatchClause}
    (added : progress.addMatch clause = .ok after) (given : String) :
    (after.graph.slot? given).isSome = true ↔ (progress.graph.slot? given).isSome = true ∨
      given ∈ clause.patterns.flatMap Pattern.names := by
  obtain ⟨graph, bound, filtered⟩ := bind_eq_ok.mp added
  rw [Graph.slot?_eq_of_unscoped (Progress.filter_ok filtered).1]
  exact bindPatterns_names (mapError_eq_ok.mp bound) given

/-- Behind all patterns of `MATCH` their variables are bound. -/
theorem Compilation.bound_of_matched {progress matched : Progress}
    (matches' : query.matchClauses.foldlM Progress.addMatch progress = .ok matched) :
    Progress.Bound query matched := by
  intro given isVariable
  have names := foldlM_collects
    (R := fun names (before later : Progress) => (later.graph.slot? given).isSome = true ↔
      (before.graph.slot? given).isSome = true ∨ given ∈ names)
    (g := fun clause => clause.patterns.flatMap Pattern.names) (fun _ => by simp)
    (fun _ _ _ _ _ first second => by rw [second, first, List.mem_append, or_assoc])
    (fun clause _ before later added => addMatch_names added given) matches'
  exact names.mpr (.inr isVariable)

theorem Compilation.follows_start (apart : KeepsApart σ query.mentions) (settings : Settings)
    (optimize : Bool) :
    Progress.Follows σ query.mentions (.start settings)
      (.start (settings.optimizing optimize)) where
  twins := ⟨apart, rfl, rfl⟩
  paired := ⟨⟨rfl, List.forall_mem_nil _⟩, rfl, fun _ _ _ => rfl⟩
  predicates := rfl

theorem Cypher.Query.matches_rename (renames : query.Renaming σ) (settings : Settings)
    (optimize : Bool) :
    Alike CompilationError.anonymous (Progress.Follows σ query.mentions)
      (query.matchClauses.foldlM Progress.addMatch (.start settings))
      ((query.rename σ).matchClauses.foldlM Progress.addMatch
        (.start (settings.optimizing optimize))) := by
  refine Alike.foldlM_map _ ?_ (follows_start ⟨renames.injective, renames.proper⟩ _ _)
  intro clause isClause next next' follows
  exact follows.addMatch isClause

/-- `WITH` goes alike behind any patterns. -/
theorem Cypher.Query.passes_rename (renames : query.Renaming σ) {matched matched' : Progress}
    (follows : Progress.Follows σ query.mentions matched matched')
    (bound : Progress.Bound query matched) :
    Alike CompilationError.anonymous (Progress.Follows σ query.mentions)
      (query.withClauses.foldlM Progress.addWith matched)
      ((query.rename σ).withClauses.foldlM Progress.addWith matched') := by
  have passes : Alike CompilationError.anonymous
      (fun after after' => Progress.Follows σ query.mentions after after' ∧
        Progress.Bound query after)
      (query.withClauses.foldlM Progress.addWith matched)
      ((query.rename σ).withClauses.foldlM Progress.addWith matched') := by
    refine Alike.foldlM_map _ ?_ ⟨follows, bound⟩
    rintro clause isClause next next' ⟨follows, bound⟩
    exact follows.addWith renames bound isClause
  exact passes.imp fun _ _ => And.left

theorem Cypher.Query.progress_rename (renames : query.Renaming σ) (settings : Settings)
    (optimize : Bool) :
    Alike CompilationError.anonymous (Progress.Follows σ query.mentions) (query.progress settings)
      ((query.rename σ).progress (settings.optimizing optimize)) := by
  apply ((query.matches_rename renames settings optimize).and_left fun _ => bound_of_matched).bind
  rintro matched matched' ⟨follows, bound⟩
  exact query.passes_rename renames follows bound

/-- What is selected once the clauses before `RETURN` have taken effect. -/
def Compilation.Progress.selection (settings : Settings) (body : ReturnClause)
    (progress : Progress) : Except CompilationError (Sql.Selection × List Projection) := do
  (requireKnownLabels settings progress.graph).mapError .binding
  let (layout, progress) ← layoutItems progress .empty body.items
  let page ← pageOf body
  let selection : Sql.Selection :=
    { distinct := body.distinct
      columns := layout.columns
      sources := sourcesOf settings progress.graph
      joins := []
      condition := filterOf settings progress.graph progress.predicates
      grouping := layout.grouping
      aggregated := layout.aggregated
      page }
  return (selection, layout.projections)

theorem Cypher.Query.selection_eq (settings : Settings) (query : Query) :
    query.selection settings =
      query.progress settings >>= Progress.selection settings query.returnClause :=
  rfl

/-- What is selected, and what is selected under other names and with the optimization on or off:
the expressions differ in the words that nothing binds, and the filters in what the optimization
makes of the same graph. -/
structure Compilation.ResultFollows (σ : String → String) (settings : Settings) (optimize : Bool)
    (final : Draft) (result result' : Sql.Selection × List Projection) : Prop where
  columns : result.1.columns = final.layout.columns
  condition : result.1.condition =
    filterOf settings final.progress.graph final.progress.predicates
  selection : result'.1 =
    { result.1 with
      columns := result.1.columns.map (Layout.renameColumn σ)
      condition := filterOf (settings.optimizing optimize) final.progress.graph
        (final.progress.predicates.rename σ) }
  projections : List.Forall₂ (ProjectionFollows σ) result.2 result'.2

/-- Under the same names the optimization is all that the two can differ in. -/
theorem Compilation.ResultFollows.eq_optimizing {settings : Settings} {optimize : Bool}
    {final : Draft} {result result' : Sql.Selection × List Projection}
    (follows : ResultFollows id settings optimize final result result') :
    result' = ({ result.1 with
      condition := filterOf (settings.optimizing optimize) final.progress.graph
        final.progress.predicates }, result.2) := by
  have selection := follows.selection
  rw [map_rename_id Layout.renameColumn_id, Predicates.rename_id] at selection
  exact Prod.ext selection (projections_eq_of_follows follows.projections)

/-- What a query selects, and what it selects under other names. -/
structure Compilation.SelectionFollows (σ : String → String) (query : Query) (settings : Settings)
    (optimize : Bool) (final : Draft) (result result' : Sql.Selection × List Projection) : Prop
    extends ResultFollows σ settings optimize final result result' where
  run : Run (.start settings) query.events final

/-- `RETURN` goes alike behind any other clauses. -/
theorem Compilation.Progress.Follows.selection {progress progress' : Progress}
    (follows : Progress.Follows σ query.mentions progress progress') (settings : Settings)
    (optimize : Bool) :
    Alike CompilationError.anonymous
      (fun result result' => ∃ final,
        layoutItems progress .empty query.returnClause.items = .ok (final.layout, final.progress) ∧
        ResultFollows σ settings optimize final result result')
      (progress.selection settings query.returnClause)
      (progress'.selection (settings.optimizing optimize) (query.rename σ).returnClause) := by
  have sameLabels : requireKnownLabels (settings.optimizing optimize) progress'.graph =
      requireKnownLabels settings progress.graph :=
    requireKnownLabels_eq_of_unscoped follows.graph.unscoped _
  unfold Progress.selection
  rw [sameLabels]
  apply (Alike.refl _).bind
  rintro known _ rfl
  have within : ∀ item ∈ query.returnClause.items,
      Within query.mentions item.expression.ingredients := fun item isItem =>
    within_mentions (List.mem_append_right _ (List.mem_map_of_mem (f := Event.list) isItem))
  have empty : Layout.Follows σ .empty .empty := ⟨rfl, rfl, rfl, .nil⟩
  apply ((layoutItems_rename follows empty within).and_left fun _ => id).bind
  rintro ⟨layout, final⟩ ⟨layout', final'⟩ ⟨⟨laid, follows⟩, isLaid⟩
  have graph : final'.graph.unscoped = (final.graph.rename σ).unscoped := follows.graph.unscoped
  have predicates : final'.predicates = final.predicates.rename σ := follows.predicates
  have samePage : pageOf (query.rename σ).returnClause = pageOf query.returnClause :=
    pageOf_rename σ query.returnClause
  dsimp only
  rw [samePage]
  apply (Alike.refl _).bind
  rintro page _ rfl
  refine .ok ⟨⟨final, layout⟩, isLaid, rfl, rfl, ?_, laid.projections⟩
  rw [sourcesOf_eq_of_unscoped graph, filterOf_eq_of_unscoped graph, predicates, Layout.grouping,
    Layout.grouping, laid.columns, laid.aggregated, laid.keys]
  rfl

theorem Cypher.Query.selection_rename (renames : query.Renaming σ) (settings : Settings)
    (optimize : Bool) :
    Alike CompilationError.anonymous
      (fun result result' =>
        ∃ final, SelectionFollows σ query settings optimize final result result')
      (query.selection settings) ((query.rename σ).selection (settings.optimizing optimize)) := by
  rw [Query.selection_eq, Query.selection_eq]
  apply ((query.progress_rename renames settings optimize).and_left fun _ => id).bind
  rintro progress progress' ⟨follows, progressed⟩
  refine (follows.selection settings optimize).imp ?_
  rintro result result' ⟨final, isLaid, selects⟩
  exact ⟨final, { selects with run := query.run_of_progress progressed isLaid }⟩

end

end CypherSql
