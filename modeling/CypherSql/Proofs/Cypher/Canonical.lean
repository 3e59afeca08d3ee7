import CypherSql.Cypher.Parser.Query
import CypherSql.Cypher.Printer

/-! # Canonical queries

Which syntax trees have a text that says everything about them, and that text for whole
queries.

* `Expression.canonical`, `Pattern.canonical`, … — trees of the grammar: names are plain,
  lists the grammar wants are there, constants can be written.
* `Query.chars` — a query with its clauses in a given order.
* `Query.Interleaves` — the orders in which the clauses of a query can be written.
-/

namespace CypherSql.Cypher

open CypherSql.Text (isIdentifier)
open CypherSql.Cypher.Parser (isReserved greatestInteger ReadingClause)

/-! ## Names, constants and patterns -/

def isFreeName (name : String) : Bool :=
  isIdentifier name && !isReserved name

/-- A string must not contain its own quote, a whole number has a bound, and a float is
never written so that it is read back for sure. -/
def Literal.canonical : Literal → Bool
  | string text => text.toList.all (· != '\x27')
  | integer value => value ≤ greatestInteger
  | float _ => false
  | boolean _ => true
  | null => true

def NodePattern.canonical (node : NodePattern) : Bool :=
  node.name.all isFreeName && node.labels.all isIdentifier

def RelationshipPattern.canonical (relationship : RelationshipPattern) : Bool :=
  relationship.name.all isFreeName && relationship.labels.all isIdentifier

def Hop.canonical (hop : Hop) : Bool :=
  hop.relationship.canonical && hop.node.canonical

def Pattern.canonical (pattern : Pattern) : Bool :=
  pattern.node.canonical && pattern.hops.all Hop.canonical

/-! ## Expressions -/

def Power.opensNegative : Power → Bool
  | ⟨first :: _⟩ => first.negative
  | ⟨[]⟩ => false

def Multiplication.opensNegative (product : Multiplication) : Bool :=
  product.first.opensNegative

mutual

def Expression.canonical : Expression → Bool
  | ⟨operands⟩ => !operands.isEmpty && exclusionsCanonical operands

def exclusionsCanonical : List Exclusion → Bool
  | [] => true
  | operand :: rest => operand.canonical && exclusionsCanonical rest

def Exclusion.canonical : Exclusion → Bool
  | ⟨operands⟩ => !operands.isEmpty && conjunctionsCanonical operands

def conjunctionsCanonical : List Conjunction → Bool
  | [] => true
  | operand :: rest => operand.canonical && conjunctionsCanonical rest

def Conjunction.canonical : Conjunction → Bool
  | ⟨operands⟩ => !operands.isEmpty && comparisonsCanonical operands

def comparisonsCanonical : List Comparison → Bool
  | [] => true
  | operand :: rest => operand.canonical && comparisonsCanonical rest

def Comparison.canonical : Comparison → Bool
  | ⟨_, left, rest⟩ => left.canonical && comparedCanonical rest

def comparedCanonical : List (ComparisonOperator × Addition) → Bool
  | [] => true
  | (_, operand) :: rest => operand.canonical && comparedCanonical rest

def Addition.canonical : Addition → Bool
  | ⟨first, rest⟩ => first.canonical && addedCanonical rest

-- `a - -b` is left out: between two nodes `--` is a relationship.
def addedCanonical : List (AdditiveOperator × Multiplication) → Bool
  | [] => true
  | (operator, operand) :: rest =>
    !(operator == .minus && operand.opensNegative) && operand.canonical && addedCanonical rest

def Multiplication.canonical : Multiplication → Bool
  | ⟨first, rest⟩ => first.canonical && multipliedCanonical rest

def multipliedCanonical : List (MultiplicativeOperator × Power) → Bool
  | [] => true
  | (_, operand) :: rest => operand.canonical && multipliedCanonical rest

def Power.canonical : Power → Bool
  | ⟨operands⟩ => !operands.isEmpty && signedsCanonical operands

def signedsCanonical : List Signed → Bool
  | [] => true
  | operand :: rest => operand.canonical && signedsCanonical rest

def Signed.canonical : Signed → Bool
  | ⟨_, term, tests⟩ => term.canonical && testedCanonical tests

def testedCanonical : List (StringOperator × Term) → Bool
  | [] => true
  | (_, operand) :: rest => operand.canonical && testedCanonical rest

def Term.canonical : Term → Bool
  | ⟨atom, path⟩ => atom.canonical && path.all isIdentifier

def Atom.canonical : Atom → Bool
  | .name name => isFreeName name
  | .literal value => value.canonical
  | .call name _ arguments => isFreeName name && argumentsCanonical arguments
  | .countAll => true
  | .parenthesized inner => inner.canonical
  | .pattern pattern => pattern.canonical && !pattern.hops.isEmpty

def argumentsCanonical : List Expression → Bool
  | [] => true
  | argument :: rest => argument.canonical && argumentsCanonical rest

end

/-! ## Lists of operands -/

section Lists

variable {α : Type} {xs : List α}

theorem eq_all {f : List α → Bool} {p : α → Bool} (nil : f [] = true)
    (cons : ∀ x xs, f (x :: xs) = (p x && f xs)) : f xs = xs.all p := by
  induction xs with
  | nil => exact nil
  | cons x xs ih => rw [cons, ih, List.all_cons]

theorem eq_map {f : List α → List (List Char)} {g : α → List Char} (nil : f [] = [])
    (cons : ∀ x xs, f (x :: xs) = g x :: f xs) : f xs = xs.map g := by
  induction xs with
  | nil => exact nil
  | cons x xs ih => rw [cons, ih, List.map_cons]

theorem eq_flatMap {f : List α → List Char} {g : α → List Char} (nil : f [] = [])
    (cons : ∀ x xs, f (x :: xs) = g x ++ f xs) : f xs = xs.flatMap g := by
  induction xs with
  | nil => exact nil
  | cons x xs ih => rw [cons, ih, List.flatMap_cons]

end Lists

theorem exclusionsCanonical_eq {operands : List Exclusion} :
    exclusionsCanonical operands = operands.all Exclusion.canonical :=
  eq_all (by rw [exclusionsCanonical]) fun _ _ => by rw [exclusionsCanonical]

theorem conjunctionsCanonical_eq {operands : List Conjunction} :
    conjunctionsCanonical operands = operands.all Conjunction.canonical :=
  eq_all (by rw [conjunctionsCanonical]) fun _ _ => by rw [conjunctionsCanonical]

theorem comparisonsCanonical_eq {operands : List Comparison} :
    comparisonsCanonical operands = operands.all Comparison.canonical :=
  eq_all (by rw [comparisonsCanonical]) fun _ _ => by rw [comparisonsCanonical]

theorem comparedCanonical_eq {steps : List (ComparisonOperator × Addition)} :
    comparedCanonical steps = steps.all fun step => step.2.canonical :=
  eq_all (by rw [comparedCanonical]) fun _ _ => by rw [comparedCanonical]

theorem addedCanonical_eq {steps : List (AdditiveOperator × Multiplication)} :
    addedCanonical steps = steps.all fun step =>
      !(step.1 == .minus && step.2.opensNegative) && step.2.canonical :=
  eq_all (by rw [addedCanonical]) fun _ _ => by rw [addedCanonical]

theorem multipliedCanonical_eq {steps : List (MultiplicativeOperator × Power)} :
    multipliedCanonical steps = steps.all fun step => step.2.canonical :=
  eq_all (by rw [multipliedCanonical]) fun _ _ => by rw [multipliedCanonical]

theorem signedsCanonical_eq {operands : List Signed} :
    signedsCanonical operands = operands.all Signed.canonical :=
  eq_all (by rw [signedsCanonical]) fun _ _ => by rw [signedsCanonical]

theorem testedCanonical_eq {steps : List (StringOperator × Term)} :
    testedCanonical steps = steps.all fun step => step.2.canonical :=
  eq_all (by rw [testedCanonical]) fun _ _ => by rw [testedCanonical]

theorem argumentsCanonical_eq {arguments : List Expression} :
    argumentsCanonical arguments = arguments.all Expression.canonical :=
  eq_all (by rw [argumentsCanonical]) fun _ _ => by rw [argumentsCanonical]

theorem exclusionsChars_eq {operands : List Exclusion} :
    exclusionsChars operands = operands.map Exclusion.chars :=
  eq_map (by rw [exclusionsChars]) fun _ _ => by rw [exclusionsChars]

theorem conjunctionsChars_eq {operands : List Conjunction} :
    conjunctionsChars operands = operands.map Conjunction.chars :=
  eq_map (by rw [conjunctionsChars]) fun _ _ => by rw [conjunctionsChars]

theorem comparisonsChars_eq {operands : List Comparison} :
    comparisonsChars operands = operands.map Comparison.chars :=
  eq_map (by rw [comparisonsChars]) fun _ _ => by rw [comparisonsChars]

theorem comparedChars_eq {steps : List (ComparisonOperator × Addition)} :
    comparedChars steps = steps.flatMap fun step => spaced step.1.symbol ++ step.2.chars :=
  eq_flatMap (by rw [comparedChars]) fun _ _ => by rw [comparedChars]

theorem addedChars_eq {steps : List (AdditiveOperator × Multiplication)} :
    addedChars steps = steps.flatMap fun step => spaced step.1.symbol ++ step.2.chars :=
  eq_flatMap (by rw [addedChars]) fun _ _ => by rw [addedChars]

theorem multipliedChars_eq {steps : List (MultiplicativeOperator × Power)} :
    multipliedChars steps = steps.flatMap fun step => spaced step.1.symbol ++ step.2.chars :=
  eq_flatMap (by rw [multipliedChars]) fun _ _ => by rw [multipliedChars]

theorem signedsChars_eq {operands : List Signed} :
    signedsChars operands = operands.map Signed.chars :=
  eq_map (by rw [signedsChars]) fun _ _ => by rw [signedsChars]

theorem testedChars_eq {steps : List (StringOperator × Term)} :
    testedChars steps = steps.flatMap fun step => spaced step.1.symbol ++ step.2.chars :=
  eq_flatMap (by rw [testedChars]) fun _ _ => by rw [testedChars]

theorem argumentsChars_eq {arguments : List Expression} :
    argumentsChars arguments = arguments.map Expression.chars :=
  eq_map (by rw [argumentsChars]) fun _ _ => by rw [argumentsChars]

/-! ## Joined texts -/

theorem joined_eq_flatMap {separator first : List Char} {others : List (List Char)} :
    joined separator (first :: others) =
      first ++ others.flatMap fun other => separator ++ other := by
  induction others generalizing first with
  | nil => simp [joined]
  | cons other others ih =>
    have step : joined separator (first :: other :: others) =
        first ++ separator ++ joined separator (other :: others) := by
      simp [joined, List.intercalate]
    rw [step, ih, List.flatMap_cons]
    simp

section Lengths

variable {α : Type} {x : α} {xs : List α}

theorem length_le_flatMap (text : α → List Char) (isIn : x ∈ xs) :
    (text x).length ≤ (xs.flatMap text).length := by
  have inside : List.Sublist (text x) (xs.map text).flatten :=
    List.sublist_flatten_of_mem (List.mem_map_of_mem isIn)
  exact inside.length_le

theorem length_le_steps {β : Type} {steps : List (α × β)} {step : α × β} (mark : α → List Char)
    (text : β → List Char) (isIn : step ∈ steps) :
    (text step.2).length ≤ (steps.flatMap fun step => mark step.1 ++ text step.2).length := by
  have inSteps := length_le_flatMap (fun step : α × β => mark step.1 ++ text step.2) isIn
  rw [List.length_append] at inSteps
  omega

theorem length_le_joined (separator : List Char) (text : α → List Char) (isIn : x ∈ xs) :
    (text x).length ≤ (joined separator (xs.map text)).length := by
  cases xs with
  | nil => simp at isIn
  | cons first others =>
    rw [List.map_cons, joined_eq_flatMap, List.length_append, List.flatMap_map]
    rcases List.mem_cons.mp isIn with rfl | later
    · exact Nat.le_add_right _ _
    · have inOthers := length_le_flatMap (fun other => separator ++ text other) later
      rw [List.length_append] at inOthers
      omega

end Lengths

/-! ## Clauses -/

def MatchClause.canonical (clause : MatchClause) : Bool :=
  !clause.patterns.isEmpty && clause.patterns.all Pattern.canonical &&
    clause.predicate.all Expression.canonical

def ProjectionItem.canonical (item : ProjectionItem) : Bool :=
  item.expression.canonical && item.name.all isFreeName

def WithClause.canonical (clause : WithClause) : Bool :=
  !clause.items.isEmpty && clause.items.all ProjectionItem.canonical &&
    clause.predicate.all Expression.canonical

def ReturnClause.canonical (clause : ReturnClause) : Bool :=
  !clause.items.isEmpty && clause.items.all ProjectionItem.canonical &&
    clause.skip.all Expression.canonical && clause.limit.all Expression.canonical

def Query.canonical (query : Query) : Bool :=
  query.matchClauses.all MatchClause.canonical && query.withClauses.all WithClause.canonical &&
    query.returnClause.canonical

/-! ## The text of a query -/

def optionalChars (word : String) : Option Expression → List Char
  | none => []
  | some expression => spaced word ++ expression.chars

def MatchClause.chars (clause : MatchClause) : List Char :=
  "MATCH ".toList ++ joined [',', ' '] (clause.patterns.map Pattern.chars) ++
    optionalChars "WHERE" clause.predicate

def ProjectionItem.chars (item : ProjectionItem) : List Char :=
  item.expression.chars ++
    match item.name with
    | none => []
    | some name => spaced "AS" ++ name.toList

def WithClause.chars (clause : WithClause) : List Char :=
  "WITH ".toList ++ joined [',', ' '] (clause.items.map ProjectionItem.chars) ++
    optionalChars "WHERE" clause.predicate

def ReturnClause.chars (clause : ReturnClause) : List Char :=
  "RETURN ".toList ++ (if clause.distinct then "DISTINCT ".toList else []) ++
    joined [',', ' '] (clause.items.map ProjectionItem.chars) ++
    optionalChars "SKIP" clause.skip ++ optionalChars "LIMIT" clause.limit

def Parser.ReadingClause.chars : ReadingClause → List Char
  | .matching clause => clause.chars
  | .passing clause => clause.chars

/-- The clauses, each with a space behind it, the result, and a semicolon if wanted. -/
def Query.chars (clauses : List ReadingClause) (body : ReturnClause) (semicolon : Bool) :
    List Char :=
  (clauses.flatMap fun clause => clause.chars ++ [' ']) ++ body.chars ++
    if semicolon then [';'] else []

/-- The text of `query` with its clauses in the order of `clauses`. -/
def Query.text (query : Query) (clauses : List ReadingClause) (semicolon : Bool) : String :=
  String.ofList (Query.chars clauses query.returnClause semicolon)

/-- `clauses` are the `MATCH` and the `WITH` clauses of `query`, those of one kind in
their order. -/
def Query.Interleaves (query : Query) (clauses : List ReadingClause) : Prop :=
  clauses.filterMap ReadingClause.matching? = query.matchClauses ∧
    clauses.filterMap ReadingClause.passing? = query.withClauses

end CypherSql.Cypher
