import CypherSql.Cypher.Parser.Expression
import CypherSql.Text.Blank

/-! # Reading queries

* `Parser.matchClause`, `Parser.withClause`, `Parser.returnClause` — the clauses.
* `Query.parse`, `Expression.parse` — a whole text as a query or an expression.
-/

namespace CypherSql.Cypher

namespace Parser

def whereClause : Parser Expression := do
  spacing (keyword "WHERE")
  inContext .whereClause (commit expression)

/-- `MATCH patterns [WHERE predicate]`. -/
def matchClause : Parser MatchClause := do
  spacing (keyword "MATCH")
  -- Behind the keyword there is no other way to read the clause.
  let patterns ← inContext .matchClause (separated (spacing (char ',')) (commit pattern))
  let predicate ← optional whereClause
  return ⟨patterns, predicate⟩

def itemName : Parser String := do
  spacing (keyword "AS")
  inContext .projectionAlias (commit (spacing variableName))

/-- `expression [AS name]`. -/
def projectionItem : Parser ProjectionItem := do
  let value ← expression
  let name ← optional itemName
  return ⟨value, name⟩

def projectionItems : Parser (List ProjectionItem) :=
  separated (spacing (char ',')) (commit projectionItem)

/-- `WITH items [WHERE predicate]`. -/
def withClause : Parser WithClause := do
  spacing (keyword "WITH")
  let items ← inContext .withClause projectionItems
  let predicate ← optional whereClause
  return ⟨items, predicate⟩

def pageClause (word : String) (context : Context) : Parser Expression := do
  spacing (keyword word)
  inContext context (commit expression)

/-- `RETURN [DISTINCT] items [SKIP n] [LIMIT n]`. -/
def returnClause : Parser ReturnClause := do
  spacing (keyword "RETURN")
  let distinct ← optional (spacing (keyword "DISTINCT"))
  let items ← inContext .returnClause projectionItems
  let skip ← optional (pageClause "SKIP" .skipClause)
  let limit ← optional (pageClause "LIMIT" .limitClause)
  return ⟨distinct.isSome, items, skip, limit⟩

inductive ReadingClause where
  | matching (clause : MatchClause)
  | passing (clause : WithClause)

def ReadingClause.matching? : ReadingClause → Option MatchClause
  | matching clause => some clause
  | passing _ => none

def ReadingClause.passing? : ReadingClause → Option WithClause
  | matching _ => none
  | passing clause => some clause

def readingClause : Parser ReadingClause :=
  orElse
    (do let clause ← matchClause; return .matching clause)
    (do let clause ← withClause; return .passing clause)

/-- The clauses of a query, and a semicolon that may end it. -/
def query : Parser Query := do
  let _ ← spaces
  let clauses ← many readingClause
  -- Nothing else may follow the clauses, so what is missing is `RETURN`.
  let body ← inContext .requiredReturn (commit returnClause)
  let _ ← optional (spacing (char ';'))
  return ⟨clauses.filterMap ReadingClause.matching?, clauses.filterMap ReadingClause.passing?,
    body⟩

/-- Reads the whole of a text.  What is left over may only be blank. -/
def whole {α : Type} (parser : Parser α) (text : String) : Except ParseError α :=
  match parser text.toList with
  | .accept value rest =>
    if (Text.trim rest).isEmpty then .ok value
    else .error (.here rest .unexpectedInput)
  | .reject error => .error error
  | .abort error => .error error

end Parser

def Query.parse (text : String) : Except ParseError Query :=
  Parser.whole Parser.query text

def Expression.parse (text : String) : Except ParseError Expression :=
  Parser.whole (Parser.spacing Parser.expression) text

end CypherSql.Cypher
