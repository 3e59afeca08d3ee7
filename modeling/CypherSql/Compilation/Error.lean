import CypherSql.Sql.Error

/-! # Errors of compilation

Why a query that reads well cannot be compiled, and the words for it.
-/

namespace CypherSql

open CypherSql.Graph (BindingError)
open CypherSql.Sql (GenerationError)

inductive PageClause where
  | skip
  | limit
  deriving DecidableEq, Repr

def PageClause.keyword : PageClause → String
  | skip => "SKIP"
  | limit => "LIMIT"

inductive CompilationError where
  | skipWithoutLimit
  | invalidPagination (clause : PageClause)
  | binding (error : BindingError)
  | generation (error : GenerationError)
  deriving DecidableEq, Repr

namespace CompilationError

def message : CompilationError → String
  | skipWithoutLimit => "SKIP must be used together with LIMIT"
  | invalidPagination clause => clause.keyword ++ " expects a non-negative integer literal"
  | binding error => error.message
  | generation error => error.message

/-- An error of generation as an error of compilation.  What is wrong with a binding
stays that, wherever the binding was made. -/
def ofGeneration : GenerationError → CompilationError
  | .binding error => binding error
  | error => generation error

end CompilationError

end CypherSql
