import CypherSql.Graph.Error

/-! # Errors of generating SQL

* `Malformation` — the shapes of expressions and queries that SQL cannot be made of.
* `GenerationError` — why no SQL can be generated.
-/

namespace CypherSql.Sql

inductive Malformation where
  | emptyExpression
  | emptyExclusion
  | exclusion
  | emptyConjunction
  | chainedComparison
  | emptyPower
  | severalStringTests
  | countArguments
  | nestedAggregate
  | propertyOfValue (term : String)
  | unnamedItem (expression : String)
  | filteredAggregate (expression : String)
  | noColumns
  | groupingOutOfRange (index columnCount : Nat)
  deriving DecidableEq, Repr

def Malformation.message : Malformation → String
  | emptyExpression => "empty expression"
  | emptyExclusion => "empty XOR operand list"
  | exclusion => "XOR is not supported"
  | emptyConjunction => "empty AND operand list"
  | chainedComparison => "chained comparisons are not supported"
  | emptyPower => "empty power expression"
  | severalStringTests => "only one string operator may apply to an operand"
  | countArguments => "COUNT expects exactly one argument"
  | nestedAggregate => "aggregate functions cannot be nested"
  | propertyOfValue term => "property access is only supported on variables: `" ++ term ++ "`"
  | unnamedItem expression => "expression in WITH must be aliased: `" ++ expression ++ "`"
  | filteredAggregate expression =>
    "aggregates cannot be filtered in WITH ... WHERE: `" ++ expression ++ "`"
  | noColumns => "a query must project at least one column"
  | groupingOutOfRange index columnCount =>
    "GROUP BY refers to projection " ++ toString index ++ " but only " ++
      toString columnCount ++ " exist"

inductive GenerationError where
  | unsupportedFunction (name : String)
  | invalidStringOperand (term : String)
  | malformed (shape : Malformation)
  | missingColumnName (expression : String)
  | unmergeableAggregate (expression : String)
  | binding (error : Graph.BindingError)
  deriving DecidableEq, Repr

def GenerationError.message : GenerationError → String
  | unsupportedFunction name => "Function `" ++ name ++ "` is not supported (only COUNT is)"
  | invalidStringOperand term =>
    "String operators expect a string literal on the right-hand side, got `" ++ term ++ "`"
  | malformed shape => "Malformed expression: " ++ shape.message
  | missingColumnName expression =>
    "Projection `" ++ expression ++ "` needs an alias to be grouped across union branches"
  | unmergeableAggregate expression =>
    "Aggregate inside `" ++ expression ++ "` cannot be combined across union branches"
  | binding error => error.message

end CypherSql.Sql
