import CypherSql.Cypher.Syntax
import CypherSql.Text.Identifier

/-! # What expressions are made of

Operators and parentheses aside, an expression consists of names, constants, calls and patterns.
They are listed from left to right, together with those in the arguments of calls, between
parentheses and behind string tests.

* `Ingredient` — a part of an expression without parts of its own.
* `Expression.ingredients` — all of them, in the order in which they are written.
* `Expression.patterns` — those that are patterns.
* `Pattern.nodes`, `Pattern.relationships` — the slots that a pattern speaks of.
-/

namespace CypherSql.Cypher

/-- A part of an expression.  A name has the properties with it that are taken from it, and a call
stands in front of the ingredients of its arguments. -/
inductive Ingredient where
  | name (name : String) (path : List String)
  | literal (value : Literal)
  | call (function : String)
  | countAll
  | pattern (pattern : Pattern)
  deriving DecidableEq, Repr

/-- Counting is the one way to aggregate. -/
def Ingredient.aggregates : Ingredient → Bool
  | .call function => Text.sameIgnoringCase function "COUNT"
  | .countAll => true
  | .name _ _ | .literal _ | .pattern _ => false

mutual

def Expression.ingredients : Expression → List Ingredient
  | ⟨operands⟩ => exclusionsIngredients operands

def exclusionsIngredients : List Exclusion → List Ingredient
  | [] => []
  | operand :: rest => operand.ingredients ++ exclusionsIngredients rest

def Exclusion.ingredients : Exclusion → List Ingredient
  | ⟨operands⟩ => conjunctionsIngredients operands

def conjunctionsIngredients : List Conjunction → List Ingredient
  | [] => []
  | operand :: rest => operand.ingredients ++ conjunctionsIngredients rest

def Conjunction.ingredients : Conjunction → List Ingredient
  | ⟨operands⟩ => comparisonsIngredients operands

def comparisonsIngredients : List Comparison → List Ingredient
  | [] => []
  | operand :: rest => operand.ingredients ++ comparisonsIngredients rest

def Comparison.ingredients : Comparison → List Ingredient
  | ⟨_, left, rest⟩ => left.ingredients ++ comparedIngredients rest

def comparedIngredients : List (ComparisonOperator × Addition) → List Ingredient
  | [] => []
  | (_, operand) :: rest => operand.ingredients ++ comparedIngredients rest

def Addition.ingredients : Addition → List Ingredient
  | ⟨first, rest⟩ => first.ingredients ++ addedIngredients rest

def addedIngredients : List (AdditiveOperator × Multiplication) → List Ingredient
  | [] => []
  | (_, operand) :: rest => operand.ingredients ++ addedIngredients rest

def Multiplication.ingredients : Multiplication → List Ingredient
  | ⟨first, rest⟩ => first.ingredients ++ multipliedIngredients rest

def multipliedIngredients : List (MultiplicativeOperator × Power) → List Ingredient
  | [] => []
  | (_, operand) :: rest => operand.ingredients ++ multipliedIngredients rest

def Power.ingredients : Power → List Ingredient
  | ⟨operands⟩ => signedsIngredients operands

def signedsIngredients : List Signed → List Ingredient
  | [] => []
  | operand :: rest => operand.ingredients ++ signedsIngredients rest

def Signed.ingredients : Signed → List Ingredient
  | ⟨_, term, tests⟩ => term.ingredients ++ testedIngredients tests

def testedIngredients : List (StringOperator × Term) → List Ingredient
  | [] => []
  | (_, operand) :: rest => operand.ingredients ++ testedIngredients rest

def Term.ingredients : Term → List Ingredient
  | ⟨.name name, path⟩ => [.name name path]
  | ⟨atom, _⟩ => atom.ingredients

def Atom.ingredients : Atom → List Ingredient
  | .name name => [.name name []]
  | .literal value => [.literal value]
  | .call function _ arguments => .call function :: argumentsIngredients arguments
  | .countAll => [.countAll]
  | .parenthesized inner => inner.ingredients
  | .pattern pattern => [.pattern pattern]

def argumentsIngredients : List Expression → List Ingredient
  | [] => []
  | argument :: rest => argument.ingredients ++ argumentsIngredients rest

end

/-! ## Patterns -/

def Ingredient.pattern? : Ingredient → Option Pattern
  | .pattern found => some found
  | _ => none

/-- The patterns that an expression tests for, from left to right. -/
def Expression.patterns (expression : Expression) : List Pattern :=
  expression.ingredients.filterMap Ingredient.pattern?

/-! ## Slots of patterns -/

def Pattern.nodes (pattern : Pattern) : List NodePattern :=
  pattern.node :: pattern.hops.map Hop.node

def Pattern.relationships (pattern : Pattern) : List RelationshipPattern :=
  pattern.hops.map Hop.relationship

end CypherSql.Cypher
