import CypherSql.Graph.Basic
import CypherSql.Proofs.Cypher.Ingredients

/-! # Queries as events

The clauses of a query consist of patterns, predicates and items, which take effect one after the
other: those of all `MATCH` clauses, those of all `WITH` clauses, and the items of `RETURN`.  Which
names are known at each of these points can be read from the query alone.

* `Event`, `Query.events` — what takes effect, in this order.
* `Names` — the names that are known at some point.
* `Query.stages` — the events with the names that are known before each of them.
* `filter_mem_events` — which events are predicates of `MATCH`.
* `given_of_filter` — no name is given where they stand.
* `Query.resolves` — every bare name is known where it stands.
-/

namespace CypherSql.Cypher

/-! ## Events -/

inductive Event where
  /-- A pattern of `MATCH`. -/
  | mention (pattern : Pattern)
  /-- The predicate of a `MATCH`. -/
  | filter (predicate : Expression)
  /-- An item of `WITH`. -/
  | give (item : ProjectionItem)
  /-- The predicate of a `WITH`. -/
  | pass (predicate : Expression)
  /-- An item of `RETURN`. -/
  | list (item : ProjectionItem)

def Event.expression? : Event → Option Expression
  | .mention _ => none
  | .filter predicate | .pass predicate => some predicate
  | .give item | .list item => some item.expression

def Event.ingredients (event : Event) : List Ingredient :=
  (event.expression?.map Expression.ingredients).getD []

def MatchClause.events (clause : MatchClause) : List Event :=
  clause.patterns.map .mention ++ clause.predicate.toList.map .filter

def WithClause.events (clause : WithClause) : List Event :=
  clause.items.map .give ++ clause.predicate.toList.map .pass

def Query.events (query : Query) : List Event :=
  query.matchClauses.flatMap MatchClause.events ++ query.withClauses.flatMap WithClause.events ++
    query.returnClause.items.map .list

/-! ## Names -/

/-- The variables that patterns have bound, and the names that `WITH` has given. -/
structure Names where
  bound : List String
  given : List String
  deriving DecidableEq, Repr

def Names.empty : Names :=
  ⟨[], []⟩

/-- The variables of the nodes and relationships of a pattern. -/
def Pattern.names (pattern : Pattern) : List String :=
  (pattern.nodes.map NodePattern.name ++
    pattern.relationships.map RelationshipPattern.name).filterMap Graph.properName

/-- The names that are known behind an event. -/
def Event.names (known : Names) : Event → Names
  | .mention pattern => { known with bound := known.bound ++ pattern.names }
  | .give item => { known with given := known.given ++ item.name.toList }
  | .filter _ | .pass _ | .list _ => known

def namesAfter (events : List Event) : Names :=
  events.foldl (fun known event => event.names known) .empty

theorem namesAfter_concat (events : List Event) (event : Event) :
    namesAfter (events ++ [event]) = event.names (namesAfter events) := by
  rw [namesAfter, List.foldl_append]
  rfl

/-- An event and those that take effect before it. -/
structure Stage where
  earlier : List Event
  event : Event

def Stage.known (stage : Stage) : Names :=
  namesAfter stage.earlier

def stagesFrom (earlier : List Event) : List Event → List Stage
  | [] => []
  | event :: rest => ⟨earlier, event⟩ :: stagesFrom (earlier ++ [event]) rest

def Query.stages (query : Query) : List Stage :=
  stagesFrom [] query.events

section

variable {stage : Stage}

/-- The stages of a row of events are its divisions. -/
theorem mem_stagesFrom {earlier events : List Event} : stage ∈ stagesFrom earlier events ↔
    ∃ before after, events = before ++ stage.event :: after ∧
      stage.earlier = earlier ++ before := by
  induction events generalizing earlier with
  | nil => simp [stagesFrom]
  | cons event rest ih =>
    rw [stagesFrom, List.mem_cons, ih]
    constructor
    · rintro (rfl | ⟨before, after, rfl, same⟩)
      · exact ⟨[], rest, rfl, (List.append_nil _).symm⟩
      · exact ⟨event :: before, after, rfl, by rw [same, List.append_assoc]; rfl⟩
    · rintro ⟨_ | ⟨first, before⟩, after, isList, same⟩
      · obtain ⟨rfl, rfl⟩ := List.cons.inj isList
        rw [List.append_nil] at same
        exact .inl (by cases stage; cases same; rfl)
      · obtain ⟨rfl, rfl⟩ := List.cons.inj isList
        exact .inr ⟨before, after, rfl, by rw [same, List.append_assoc]; rfl⟩

theorem Query.mem_stages {query : Query} :
    stage ∈ query.stages ↔ ∃ later, query.events = stage.earlier ++ stage.event :: later := by
  rw [Query.stages, mem_stagesFrom]
  constructor
  · rintro ⟨before, later, isList, rfl⟩
    exact ⟨later, isList⟩
  · rintro ⟨later, isList⟩
    exact ⟨stage.earlier, later, isList, rfl⟩

theorem Query.event_mem_of_mem_stages {query : Query} (isStage : stage ∈ query.stages) :
    stage.event ∈ query.events := by
  obtain ⟨later, isList⟩ := Query.mem_stages.mp isStage
  simp [isList]

theorem Query.exists_mem_stages {query : Query} {event : Event} (isOne : event ∈ query.events) :
    ∃ stage ∈ query.stages, stage.event = event := by
  obtain ⟨earlier, later, isList⟩ := List.append_of_mem isOne
  exact ⟨⟨earlier, event⟩, Query.mem_stages.mpr ⟨later, isList⟩, rfl⟩

end

/-! ## Clauses and events -/

section

variable {query : Query} {predicate : Expression}

/-- Whether an event is part of a `MATCH`. -/
def Event.isMatch : Event → Bool
  | .mention _ | .filter _ => true
  | .give _ | .pass _ | .list _ => false

theorem isMatch_of_mem_matchEvents {event : Event}
    (isOne : event ∈ query.matchClauses.flatMap MatchClause.events) : event.isMatch = true := by
  simp only [List.mem_flatMap, MatchClause.events, List.mem_append, List.mem_map] at isOne
  rcases isOne with ⟨clause, _, ⟨pattern, _, rfl⟩ | ⟨predicate, _, rfl⟩⟩ <;> rfl

/-- Whether the expression of an event is shown in the statement: what an item of `WITH` is, only
its name brings there. -/
def Event.isShown : Event → Bool
  | .filter _ | .pass _ | .list _ => true
  | .mention _ | .give _ => false

theorem filter_mem_events : .filter predicate ∈ query.events ↔
    ∃ clause ∈ query.matchClauses, predicate ∈ clause.predicate := by
  simp [Query.events, MatchClause.events, WithClause.events]

theorem given_namesAfter {events : List Event} (each : ∀ event ∈ events, event.isMatch = true)
    (known : Names) : (events.foldl (fun known event => event.names known) known).given =
      known.given := by
  induction events generalizing known with
  | nil => rfl
  | cons event rest ih =>
    obtain ⟨first, others⟩ := List.forall_mem_cons.mp each
    rw [List.foldl_cons, ih others]
    cases event with
    | mention | filter => rfl
    | give | pass | list => contradiction

/-- In a `MATCH` no name has been given yet. -/
theorem given_of_filter {stage : Stage} (isStage : stage ∈ query.stages)
    (isFilter : stage.event = .filter predicate) : stage.known.given = [] := by
  obtain ⟨later, isList⟩ := Query.mem_stages.mp isStage
  rw [Query.events, List.append_assoc, isFilter] at isList
  have each : ∀ event ∈ stage.earlier, event.isMatch = true := by
    rcases List.append_eq_append_iff.mp isList with ⟨between, isEarlier, isRest⟩ |
      ⟨between, isMatches, -⟩
    -- The predicate of a `MATCH` is none of the events behind all of them.
    · have there : .filter predicate ∈ query.withClauses.flatMap WithClause.events ++
          query.returnClause.items.map Event.list := by
        simp [isRest]
      simp [WithClause.events] at there
    · exact fun event isOne => isMatch_of_mem_matchEvents (isMatches ▸ List.mem_append_left _ isOne)
  exact given_namesAfter each .empty

end

/-! ## Known names -/

/-- A name without properties is a variable or was given by `WITH`. -/
def Names.resolves (known : Names) : Ingredient → Bool
  | .name name [] => known.bound.contains name || known.given.contains name
  | _ => true

def Query.resolves (query : Query) : Bool :=
  query.stages.all fun stage => stage.event.ingredients.all stage.known.resolves

end CypherSql.Cypher
