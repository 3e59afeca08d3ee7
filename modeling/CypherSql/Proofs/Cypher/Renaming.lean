import CypherSql.Proofs.Cypher.Events
import Mathlib.Logic.Basic

/-! # Other names for variables

A query can be given other names for its variables.  What it speaks of stays the same as long as
different names stay different, and the names of everything else are left alone.

* `Query.rename` — the query with every name in a pattern or an expression replaced.  The names that
  `AS` gives stay.
* `Query.mentions` — the names that occur in patterns and expressions.
* `Query.variables`, `Query.aliases` — those of slots, and those that `AS` gives.
* `Query.Renaming` — what it takes to rename the variables of a query and nothing else.
* `Query.rename_id` — a query under its own names.
-/

namespace CypherSql.Cypher

/-! ## Replacing names -/

section

variable (σ : String → String)

def NodePattern.rename (node : NodePattern) : NodePattern :=
  { node with name := node.name.map σ }

def RelationshipPattern.rename (relationship : RelationshipPattern) : RelationshipPattern :=
  { relationship with name := relationship.name.map σ }

def Hop.rename (hop : Hop) : Hop :=
  ⟨hop.relationship.rename σ, hop.node.rename σ⟩

def Pattern.rename (pattern : Pattern) : Pattern :=
  ⟨pattern.node.rename σ, pattern.hops.map (Hop.rename σ)⟩

mutual

def Expression.rename : Expression → Expression
  | ⟨operands⟩ => ⟨exclusionsRename operands⟩

def exclusionsRename : List Exclusion → List Exclusion
  | [] => []
  | operand :: rest => operand.rename :: exclusionsRename rest

def Exclusion.rename : Exclusion → Exclusion
  | ⟨operands⟩ => ⟨conjunctionsRename operands⟩

def conjunctionsRename : List Conjunction → List Conjunction
  | [] => []
  | operand :: rest => operand.rename :: conjunctionsRename rest

def Conjunction.rename : Conjunction → Conjunction
  | ⟨operands⟩ => ⟨comparisonsRename operands⟩

def comparisonsRename : List Comparison → List Comparison
  | [] => []
  | operand :: rest => operand.rename :: comparisonsRename rest

def Comparison.rename : Comparison → Comparison
  | ⟨negated, left, rest⟩ => ⟨negated, left.rename, comparedRename rest⟩

def comparedRename :
    List (ComparisonOperator × Addition) → List (ComparisonOperator × Addition)
  | [] => []
  | (operator, operand) :: rest => (operator, operand.rename) :: comparedRename rest

def Addition.rename : Addition → Addition
  | ⟨first, rest⟩ => ⟨first.rename, addedRename rest⟩

def addedRename :
    List (AdditiveOperator × Multiplication) → List (AdditiveOperator × Multiplication)
  | [] => []
  | (operator, operand) :: rest => (operator, operand.rename) :: addedRename rest

def Multiplication.rename : Multiplication → Multiplication
  | ⟨first, rest⟩ => ⟨first.rename, multipliedRename rest⟩

def multipliedRename :
    List (MultiplicativeOperator × Power) → List (MultiplicativeOperator × Power)
  | [] => []
  | (operator, operand) :: rest => (operator, operand.rename) :: multipliedRename rest

def Power.rename : Power → Power
  | ⟨operands⟩ => ⟨signedsRename operands⟩

def signedsRename : List Signed → List Signed
  | [] => []
  | operand :: rest => operand.rename :: signedsRename rest

def Signed.rename : Signed → Signed
  | ⟨negative, term, tests⟩ => ⟨negative, term.rename, testedRename tests⟩

def testedRename : List (StringOperator × Term) → List (StringOperator × Term)
  | [] => []
  | (operator, operand) :: rest => (operator, operand.rename) :: testedRename rest

def Term.rename : Term → Term
  | ⟨atom, path⟩ => ⟨atom.rename, path⟩

def Atom.rename : Atom → Atom
  | .name name => .name (σ name)
  | .call function distinct arguments => .call function distinct (argumentsRename arguments)
  | .parenthesized inner => .parenthesized inner.rename
  | .pattern pattern => .pattern (pattern.rename σ)
  | .literal value => .literal value
  | .countAll => .countAll

def argumentsRename : List Expression → List Expression
  | [] => []
  | argument :: rest => argument.rename :: argumentsRename rest

end

def MatchClause.rename (clause : MatchClause) : MatchClause :=
  ⟨clause.patterns.map (Pattern.rename σ), clause.predicate.map (Expression.rename σ)⟩

def ProjectionItem.rename (item : ProjectionItem) : ProjectionItem :=
  { item with expression := item.expression.rename σ }

def WithClause.rename (clause : WithClause) : WithClause :=
  ⟨clause.items.map (ProjectionItem.rename σ), clause.predicate.map (Expression.rename σ)⟩

def ReturnClause.rename (clause : ReturnClause) : ReturnClause where
  distinct := clause.distinct
  items := clause.items.map (ProjectionItem.rename σ)
  skip := clause.skip.map (Expression.rename σ)
  limit := clause.limit.map (Expression.rename σ)

def Query.rename (query : Query) : Query where
  matchClauses := query.matchClauses.map (MatchClause.rename σ)
  withClauses := query.withClauses.map (WithClause.rename σ)
  returnClause := query.returnClause.rename σ

/-! Operators stay where they are. -/

theorem isEmpty_comparedRename (rest : List (ComparisonOperator × Addition)) :
    (comparedRename σ rest).isEmpty = rest.isEmpty := by
  cases rest <;> rfl

theorem isEmpty_addedRename (rest : List (AdditiveOperator × Multiplication)) :
    (addedRename σ rest).isEmpty = rest.isEmpty := by
  cases rest <;> rfl

theorem isEmpty_multipliedRename (rest : List (MultiplicativeOperator × Power)) :
    (multipliedRename σ rest).isEmpty = rest.isEmpty := by
  cases rest <;> rfl

theorem isEmpty_testedRename (tests : List (StringOperator × Term)) :
    (testedRename σ tests).isEmpty = tests.isEmpty := by
  cases tests <;> rfl

/-- An expression is a term under other names when it is one. -/
theorem Expression.term?_rename : ∀ expression : Expression,
    (expression.rename σ).term? = expression.term?.map (Term.rename σ)
  -- Any other shape deviates from that of a term somewhere, read from left to right.
  | ⟨[]⟩ | ⟨⟨[]⟩ :: _⟩ | ⟨⟨⟨[]⟩ :: _⟩ :: _⟩ | ⟨⟨⟨⟨true, _, _⟩ :: _⟩ :: _⟩ :: _⟩ => rfl
  | ⟨⟨⟨⟨false, ⟨⟨⟨[]⟩, _⟩, _⟩, _⟩ :: _⟩ :: _⟩ :: _⟩ => rfl
  | ⟨⟨⟨⟨false, ⟨⟨⟨⟨true, _, _⟩ :: _⟩, _⟩, _⟩, _⟩ :: _⟩ :: _⟩ :: _⟩ => rfl
  | ⟨⟨⟨⟨false, ⟨⟨⟨⟨false, _, (_, _) :: _⟩ :: _⟩, _⟩, _⟩, _⟩ :: _⟩ :: _⟩ :: _⟩ => rfl
  | ⟨⟨⟨⟨false, ⟨⟨⟨⟨false, _, []⟩ :: _ :: _⟩, _⟩, _⟩, _⟩ :: _⟩ :: _⟩ :: _⟩ => rfl
  | ⟨⟨⟨⟨false, ⟨⟨⟨[⟨false, _, []⟩]⟩, (_, _) :: _⟩, _⟩, _⟩ :: _⟩ :: _⟩ :: _⟩ => rfl
  | ⟨⟨⟨⟨false, ⟨⟨⟨[⟨false, _, []⟩]⟩, []⟩, (_, _) :: _⟩, _⟩ :: _⟩ :: _⟩ :: _⟩ => rfl
  | ⟨⟨⟨⟨false, ⟨⟨⟨[⟨false, _, []⟩]⟩, []⟩, []⟩, (_, _) :: _⟩ :: _⟩ :: _⟩ :: _⟩ => rfl
  | ⟨⟨⟨⟨false, ⟨⟨⟨[⟨false, _, []⟩]⟩, []⟩, []⟩, []⟩ :: _ :: _⟩ :: _⟩ :: _⟩ => rfl
  | ⟨⟨⟨[⟨false, ⟨⟨⟨[⟨false, _, []⟩]⟩, []⟩, []⟩, []⟩]⟩ :: _ :: _⟩ :: _⟩ => rfl
  | ⟨⟨[⟨[⟨false, ⟨⟨⟨[⟨false, _, []⟩]⟩, []⟩, []⟩, []⟩]⟩]⟩ :: _ :: _⟩ => rfl
  | ⟨[⟨[⟨[⟨false, ⟨⟨⟨[⟨false, _, []⟩]⟩, []⟩, []⟩, []⟩]⟩]⟩]⟩ => rfl

end

/-! ## Names -/

/-- All names in a pattern, the empty one included. -/
def Pattern.mentions (pattern : Pattern) : List String :=
  (pattern.nodes.map NodePattern.name ++
    pattern.relationships.map RelationshipPattern.name).filterMap id

theorem Pattern.forall_mem_mentions {P : String → Prop} {pattern : Pattern} :
    (∀ name ∈ pattern.mentions, P name) ↔ (∀ given ∈ pattern.node.name, P given) ∧
      ∀ hop ∈ pattern.hops, (∀ given ∈ hop.node.name, P given) ∧
        ∀ given ∈ hop.relationship.name, P given := by
  simp only [mentions, nodes, relationships, List.map_cons, List.map_map, List.cons_append,
    List.mem_filterMap, List.mem_cons, List.mem_append, List.mem_map, Function.comp_apply, id_eq,
    exists_eq_right, Option.mem_def]
  grind

def Ingredient.mentions : Ingredient → List String
  | .name mentioned _ => [mentioned]
  | .pattern tested => tested.mentions
  | .literal _ | .call _ | .countAll => []

def Event.mentions : Event → List String
  | .mention pattern => pattern.mentions
  | event => event.ingredients.flatMap Ingredient.mentions

/-- The names that occur in the patterns and expressions of a query. -/
def Query.mentions (query : Query) : List String :=
  query.events.flatMap Event.mentions

/-- The names of the slots of a query. -/
def Query.variables (query : Query) : List String :=
  query.matchClauses.flatMap fun clause => clause.patterns.flatMap Pattern.names

/-- The names that `AS` gives in a `WITH`. -/
def Query.aliases (query : Query) : List String :=
  query.withClauses.flatMap fun clause => clause.items.filterMap ProjectionItem.name

/-- The renaming keeps different names different, and an empty name is no name before and after.  A
name that `AS` gives stays, and no other becomes one, except for the variables of slots, which come
before names that are given. -/
structure Query.Renaming (query : Query) (σ : String → String) : Prop where
  injective : ∀ x ∈ query.mentions, ∀ y ∈ query.mentions, σ x = σ y → x = y
  proper : ∀ x ∈ query.mentions, σ x = "" ↔ x = ""
  fixes : ∀ x ∈ query.mentions, x ∉ query.variables →
    x ∈ query.aliases ∨ σ x ∈ query.aliases → σ x = x

instance (query : Query) (σ : String → String) : Decidable (query.Renaming σ) :=
  decidable_of_iff
    ((∀ x ∈ query.mentions, ∀ y ∈ query.mentions, σ x = σ y → x = y) ∧
      (∀ x ∈ query.mentions, σ x = "" ↔ x = "") ∧
        ∀ x ∈ query.mentions, x ∉ query.variables →
          x ∈ query.aliases ∨ σ x ∈ query.aliases → σ x = x)
    ⟨fun ⟨injective, proper, fixes⟩ => ⟨injective, proper, fixes⟩,
      fun ⟨injective, proper, fixes⟩ => ⟨injective, proper, fixes⟩⟩

/-! ## The same names -/

theorem NodePattern.rename_id (node : NodePattern) : node.rename id = node := by
  rw [rename, Option.map_id]
  rfl

theorem RelationshipPattern.rename_id (relationship : RelationshipPattern) :
    relationship.rename id = relationship := by
  rw [rename, Option.map_id]
  rfl

theorem Hop.rename_id (hop : Hop) : hop.rename id = hop := by
  rw [rename, hop.relationship.rename_id, hop.node.rename_id]

theorem Pattern.rename_id (pattern : Pattern) : pattern.rename id = pattern := by
  rw [rename, pattern.node.rename_id, List.map_congr_left fun hop _ => hop.rename_id, List.map_id']

mutual

theorem Expression.rename_id : ∀ expression : Expression, expression.rename id = expression
  | ⟨operands⟩ => congrArg Expression.mk (exclusionsRename_id operands)

theorem exclusionsRename_id : ∀ operands, exclusionsRename id operands = operands
  | [] => rfl
  | operand :: rest => congrArg₂ List.cons operand.rename_id (exclusionsRename_id rest)

theorem Exclusion.rename_id : ∀ operand : Exclusion, operand.rename id = operand
  | ⟨operands⟩ => congrArg Exclusion.mk (conjunctionsRename_id operands)

theorem conjunctionsRename_id : ∀ operands, conjunctionsRename id operands = operands
  | [] => rfl
  | operand :: rest => congrArg₂ List.cons operand.rename_id (conjunctionsRename_id rest)

theorem Conjunction.rename_id : ∀ operand : Conjunction, operand.rename id = operand
  | ⟨operands⟩ => congrArg Conjunction.mk (comparisonsRename_id operands)

theorem comparisonsRename_id : ∀ operands, comparisonsRename id operands = operands
  | [] => rfl
  | operand :: rest => congrArg₂ List.cons operand.rename_id (comparisonsRename_id rest)

theorem Comparison.rename_id : ∀ operand : Comparison, operand.rename id = operand
  | ⟨negated, left, rest⟩ =>
    congrArg₂ (Comparison.mk negated) left.rename_id (comparedRename_id rest)

theorem comparedRename_id : ∀ rest, comparedRename id rest = rest
  | [] => rfl
  | (operator, operand) :: rest =>
    congrArg₂ List.cons (congrArg (Prod.mk operator) operand.rename_id) (comparedRename_id rest)

theorem Addition.rename_id : ∀ operand : Addition, operand.rename id = operand
  | ⟨first, rest⟩ => congrArg₂ Addition.mk first.rename_id (addedRename_id rest)

theorem addedRename_id : ∀ rest, addedRename id rest = rest
  | [] => rfl
  | (operator, operand) :: rest =>
    congrArg₂ List.cons (congrArg (Prod.mk operator) operand.rename_id) (addedRename_id rest)

theorem Multiplication.rename_id : ∀ operand : Multiplication, operand.rename id = operand
  | ⟨first, rest⟩ => congrArg₂ Multiplication.mk first.rename_id (multipliedRename_id rest)

theorem multipliedRename_id : ∀ rest, multipliedRename id rest = rest
  | [] => rfl
  | (operator, operand) :: rest =>
    congrArg₂ List.cons (congrArg (Prod.mk operator) operand.rename_id) (multipliedRename_id rest)

theorem Power.rename_id : ∀ operand : Power, operand.rename id = operand
  | ⟨operands⟩ => congrArg Power.mk (signedsRename_id operands)

theorem signedsRename_id : ∀ operands, signedsRename id operands = operands
  | [] => rfl
  | operand :: rest => congrArg₂ List.cons operand.rename_id (signedsRename_id rest)

theorem Signed.rename_id : ∀ operand : Signed, operand.rename id = operand
  | ⟨negative, term, tests⟩ =>
    congrArg₂ (Signed.mk negative) term.rename_id (testedRename_id tests)

theorem testedRename_id : ∀ tests, testedRename id tests = tests
  | [] => rfl
  | (operator, operand) :: rest =>
    congrArg₂ List.cons (congrArg (Prod.mk operator) operand.rename_id) (testedRename_id rest)

theorem Term.rename_id : ∀ term : Term, term.rename id = term
  | ⟨atom, path⟩ => congrArg (Term.mk · path) atom.rename_id

theorem Atom.rename_id : ∀ atom : Atom, atom.rename id = atom
  | .name _ | .literal _ | .countAll => rfl
  | .call function distinct arguments =>
    congrArg (Atom.call function distinct) (argumentsRename_id arguments)
  | .parenthesized inner => congrArg Atom.parenthesized inner.rename_id
  | .pattern pattern => congrArg Atom.pattern pattern.rename_id

theorem argumentsRename_id : ∀ operands, argumentsRename id operands = operands
  | [] => rfl
  | argument :: rest => congrArg₂ List.cons argument.rename_id (argumentsRename_id rest)

end

theorem map_rename_id {α : Type} {rename : α → α} (same : ∀ x, rename x = x) (xs : List α) :
    xs.map rename = xs := by
  rw [List.map_congr_left fun x _ => same x, List.map_id']

theorem optionMap_rename_id {α : Type} {rename : α → α} (same : ∀ x, rename x = x)
    (x : Option α) : x.map rename = x := by
  cases x with
  | none => rfl
  | some x => exact congrArg some (same x)

theorem ProjectionItem.rename_id (item : ProjectionItem) : item.rename id = item := by
  rw [rename, item.expression.rename_id]

theorem Query.rename_id (query : Query) : query.rename id = query := by
  have expressions := optionMap_rename_id Expression.rename_id
  have items := map_rename_id ProjectionItem.rename_id
  have matches' := map_rename_id fun clause : MatchClause =>
    show clause.rename id = clause by
      rw [MatchClause.rename, map_rename_id Pattern.rename_id, expressions]
  have passes := map_rename_id fun clause : WithClause =>
    show clause.rename id = clause by rw [WithClause.rename, items, expressions]
  rw [rename, matches', passes, ReturnClause.rename, items, expressions, expressions]

theorem Query.renaming_id (query : Query) : query.Renaming id where
  injective _ _ _ _ same := same
  proper _ _ := Iff.rfl
  fixes _ _ _ _ := rfl

end CypherSql.Cypher
