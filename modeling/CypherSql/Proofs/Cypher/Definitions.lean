import CypherSql.Proofs.Cypher.Events

/-! # What names stand for

A name that `WITH` gave to an expression stands for the expression as it was meant there: behind
what took effect before, where other names may have been known.  So what an expression uses, and
what it is once parentheses and such names are looked through, can be read from the query alone.

* `given?` — the expression that a name was given to last, and what took effect before.
* `definition?` — the same for names that are no variables.
* `UsesAggregate` — an expression aggregates, itself or through a name.
* `AmountsTo` — the term that an expression is.
-/

namespace CypherSql.Cypher

/-! ## Definitions -/

/-- The expression that an item of `WITH` gives this name to, with what takes effect before. -/
def Stage.gives? (name : String) : Stage → Option (List Event × Expression)
  | ⟨earlier, .give item⟩ => if item.name = some name then some (earlier, item.expression) else none
  | _ => none

/-- The expression that a name was given to last. -/
def given? (events : List Event) (name : String) : Option (List Event × Expression) :=
  (stagesFrom [] events).reverse.findSome? (Stage.gives? name)

/-- What a name stands for.  Variables come before names that were given. -/
def definition? (events : List Event) (name : String) : Option (List Event × Expression) :=
  if (namesAfter events).bound.contains name then none else given? events name

theorem stagesFrom_concat (earlier events : List Event) (event : Event) :
    stagesFrom earlier (events ++ [event]) =
      stagesFrom earlier events ++ [⟨earlier ++ events, event⟩] := by
  induction events generalizing earlier with
  | nil => simp [stagesFrom]
  | cons first rest ih => simp [stagesFrom, ih]

/-- Only the last event can change what a name stands for. -/
theorem given?_concat (events : List Event) (event : Event) (name : String) :
    given? (events ++ [event]) name =
      (Stage.gives? name ⟨events, event⟩).or (given? events name) := by
  rw [given?, stagesFrom_concat, List.nil_append, List.reverse_concat, List.findSome?_cons]
  cases Stage.gives? name ⟨events, event⟩ <;> rfl

theorem earlier_eq_of_gives? {name : String} {stage : Stage} {earlier : List Event}
    {expression : Expression} (gives : Stage.gives? name stage = some (earlier, expression)) :
    earlier = stage.earlier := by
  unfold Stage.gives? at gives
  split at gives
  · split at gives
    · exact (congrArg Prod.fst (Option.some.inj gives)).symm
    · contradiction
  · contradiction

section

variable {events earlier : List Event} {name : String} {expression : Expression}

/-- A definition is older than its use. -/
theorem length_lt_of_given? (isGiven : given? events name = some (earlier, expression)) :
    earlier.length < events.length := by
  obtain ⟨stage, isStage, gives⟩ := List.exists_of_findSome?_eq_some isGiven
  rw [earlier_eq_of_gives? gives]
  obtain ⟨before, after, rfl, same⟩ := mem_stagesFrom.mp (List.mem_reverse.mp isStage)
  rw [same]
  simp

theorem definition?_eq_some : definition? events name = some (earlier, expression) ↔
    name ∉ (namesAfter events).bound ∧ given? events name = some (earlier, expression) := by
  simp [definition?]

theorem length_lt_of_definition?
    (isDefined : definition? events name = some (earlier, expression)) :
    earlier.length < events.length :=
  length_lt_of_given? (definition?_eq_some.mp isDefined).2

end

/-! ## What expressions use -/

/-- An aggregate is written in an expression, or used by what a name in it stands for. -/
inductive UsesAggregate : List Event → Expression → Prop where
  | written {events : List Event} {expression : Expression} {ingredient : Ingredient}
      (isOne : ingredient ∈ expression.ingredients) (aggregates : ingredient.aggregates = true) :
      UsesAggregate events expression
  | named {events earlier : List Event} {expression inner : Expression} {name : String}
      (isOne : .name name [] ∈ expression.ingredients)
      (isDefined : definition? events name = some (earlier, inner))
      (uses : UsesAggregate earlier inner) : UsesAggregate events expression

/-- Everything that takes effect before the items of `RETURN`. -/
def Query.clauseEvents (query : Query) : List Event :=
  query.matchClauses.flatMap MatchClause.events ++ query.withClauses.flatMap WithClause.events

/-- Some item of `RETURN` uses an aggregate. -/
def Query.IsAggregating (query : Query) : Prop :=
  ∃ item ∈ query.returnClause.items, UsesAggregate query.clauseEvents item.expression

/-! ## What expressions amount to -/

/-- No operator is applied in an expression: it is a term, if one looks through parentheses and
names, and at this point the term stands behind what took effect `earlier`. -/
inductive AmountsTo : List Event → Expression → List Event → Term → Prop where
  | term {events : List Event} {expression : Expression} {term : Term}
      (isTerm : expression.term? = some term) : AmountsTo events expression events term
  | parenthesized {events earlier : List Event} {expression inner : Expression} {term : Term}
      (isTerm : expression.term? = some ⟨.parenthesized inner, []⟩)
      (amounts : AmountsTo events inner earlier term) : AmountsTo events expression earlier term
  | named {events before earlier : List Event} {expression inner : Expression} {name : String}
      {term : Term} (isTerm : expression.term? = some ⟨.name name, []⟩)
      (isDefined : definition? events name = some (before, inner))
      (amounts : AmountsTo before inner earlier term) : AmountsTo events expression earlier term

/-- A call of `COUNT` and nothing else. -/
def Term.isCount : Term → Bool
  | ⟨.countAll, []⟩ => true
  | ⟨.call function _ _, []⟩ => Text.sameIgnoringCase function "COUNT"
  | _ => false

/-- An expression is one call of `COUNT`. -/
def IsCount (events : List Event) (expression : Expression) : Prop :=
  ∃ earlier term, AmountsTo events expression earlier term ∧ term.isCount = true

end CypherSql.Cypher
