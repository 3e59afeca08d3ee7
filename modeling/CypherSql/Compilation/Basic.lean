import CypherSql.Cypher.Parser.Query
import CypherSql.Sql.Assembly
import CypherSql.Compilation.Columns
import CypherSql.Compilation.Error
import CypherSql.Compilation.Expression
import CypherSql.Compilation.Filter

/-! # Compiling queries

The clauses of a query take effect one after the other: patterns add slots to the
query graph, `WITH` gives names to expressions, and every `WHERE` adds a predicate.
Then `RETURN` decides the columns, and the statement is assembled.

* `Progress` — what the clauses have brought about so far.
* `Query.selection` — the description of the SQL query.
* `Query.compile` — the statement and what its columns hold.
* `compileQuery` — the same for the text of a query.
-/

namespace CypherSql

open CypherSql.Cypher

structure CompiledQuery where
  statement : Sql.Statement
  projections : List Projection

def CompiledQuery.sql (compiled : CompiledQuery) : String :=
  compiled.statement.text

inductive QueryError where
  | unreadable (error : ParseError)
  | rejected (error : CompilationError)

def QueryError.message : QueryError → String
  | unreadable error => "failed to parse query: " ++ error.message
  | rejected error => error.message

namespace Compilation

open CypherSql.Graph (BindingError Direction)
open CypherSql.Sql (GenerationError Leaf Page Selection Source)

/-! ## Progress -/

/-- The query graph, the names given by `WITH`, the number of patterns tested for and
the predicates. -/
structure Progress where
  graph : Graph
  nextPattern : Nat
  bindings : Bindings
  predicates : Predicates

def Progress.start (settings : Settings) : Progress :=
  ⟨.empty, 0, ⟨settings, []⟩, .empty⟩

def Progress.compile (progress : Progress) (expression : Expression) :
    Except CompilationError (Compiled × Progress) :=
  let start : CompilerState := ⟨progress.graph, progress.nextPattern⟩
  match (Compilation.compile progress.bindings expression).run.run start with
  | (.ok compiled, state) =>
    .ok (compiled, { progress with graph := state.graph, nextPattern := state.nextPattern })
  -- A failure ends compilation, so what it recorded in the graph is dropped.
  | (.error error, _) => .error (.ofGeneration error)

/-! ## Patterns -/

def bindHops (graph : Graph) (previous : Nat) : List Hop → Except BindingError Graph
  | [] => .ok graph
  | hop :: rest => do
    let (next, graph) ← graph.mentionNode hop.node.labels hop.node.name .clause
    let direction :=
      Direction.ofArrows hop.relationship.leftArrow hop.relationship.rightArrow
    -- Where the variable of the relationship is bound already, its ends stay as they were.
    let (_, graph) ← graph.mentionRelation hop.relationship.labels hop.relationship.name previous
      next direction .clause
    bindHops graph next rest

def bindPattern (graph : Graph) (pattern : Pattern) : Except BindingError Graph := do
  let (start, graph) ← graph.mentionNode pattern.node.labels pattern.node.name .clause
  bindHops graph start pattern.hops

def bindPatterns (graph : Graph) (patterns : List Pattern) : Except BindingError Graph :=
  patterns.foldlM bindPattern graph

/-! ## Clauses -/

def Progress.filter (progress : Progress) : Option Expression → Except CompilationError Progress
  | none => .ok progress
  | some predicate => do
    let (compiled, progress) ← progress.compile predicate
    return { progress with predicates := progress.predicates.add compiled }

def Progress.addMatch (progress : Progress) (clause : MatchClause) :
    Except CompilationError Progress := do
  let graph ← (bindPatterns progress.graph clause.patterns).mapError .binding
  { progress with graph }.filter clause.predicate

/-- Whether an expression is a variable and nothing else. -/
def isBareName (expression : Expression) : Bool :=
  match expression.term? with
  | some ⟨.name _, []⟩ => true
  | _ => false

/-- The effect of one item of `WITH`: an expression gets a name, or a variable is passed
on. -/
def Progress.addItem (progress : Progress) (item : ProjectionItem) :
    Except CompilationError Progress := do
  let (compiled, progress) ← progress.compile item.expression
  match item.name with
  | some name => return { progress with bindings := progress.bindings.bind name compiled }
  | none =>
    if isBareName item.expression then return progress
    else throw (.generation (.malformed (.unnamedItem item.expression.text)))

/-- Adds the predicate of a `WITH`, which may not use an aggregate. -/
def Progress.filterPassed (progress : Progress) :
    Option Expression → Except CompilationError Progress
  | none => .ok progress
  | some predicate => do
    let (compiled, progress) ← progress.compile predicate
    if compiled.aggregates then
      throw (.generation (.malformed (.filteredAggregate predicate.text)))
    else return { progress with predicates := progress.predicates.add compiled }

def Progress.addWith (progress : Progress) (clause : WithClause) :
    Except CompilationError Progress := do
  -- Names given by one item are known to the next one and to the predicate.
  let progress ← clause.items.foldlM Progress.addItem progress
  progress.filterPassed clause.predicate

/-- Requires that every label is known, when only some are. -/
def requireKnown (known : Option (List String)) (labels : List String)
    (error : String → BindingError) : Except BindingError Unit :=
  match known with
  | none => .ok ()
  | some known =>
    match labels.find? fun label => !known.contains label with
    | some label => .error (error label)
    | none => .ok ()

def requireKnownLabels (settings : Settings) (graph : Graph) : Except BindingError Unit := do
  requireKnown settings.knownAssetTypes (graph.nodes.flatMap Graph.Node.labels) .unknownAssetType
  requireKnown settings.knownRelationTypes (graph.relations.flatMap Graph.Relation.labels)
    .unknownRelationType

/-! ## Results -/

def layoutItems (progress : Progress) (layout : Layout) :
    List ProjectionItem → Except CompilationError (Layout × Progress)
  | [] => .ok (layout, progress)
  | item :: rest => do
    let (compiled, progress) ← progress.compile item.expression
    layoutItems progress (layout.add item compiled) rest

def integerOf? (expression : Expression) : Option Nat :=
  match expression.term? with
  | some ⟨.literal (.integer value), []⟩ => some value
  | _ => none

def pageNumber (clause : PageClause) :
    Option Expression → Except CompilationError (Option Nat)
  | none => .ok none
  | some expression =>
    match integerOf? expression with
    | some value => .ok (some value)
    | none => .error (.invalidPagination clause)

/-- The page that `RETURN` asks for.  `SKIP` alone is not enough. -/
def pageOf (body : ReturnClause) : Except CompilationError Page := do
  if body.skip.isSome && body.limit.isNone then throw .skipWithoutLimit
  let limit ← pageNumber .limit body.limit
  let offset ← pageNumber .skip body.skip
  return ⟨limit, offset⟩

def sourcesOf (settings : Settings) (graph : Graph) : List (Source Selection) :=
  graph.nodes.map (fun node => .table settings.assetsTable (some (nodeRow node.id))) ++
    graph.relations.map fun relation =>
      .table settings.relationsTable (some (relationRow relation.id))

end Compilation

open Compilation

/-! ## Queries -/

/-- The effect of all clauses before `RETURN`. -/
def Cypher.Query.progress (settings : Settings) (query : Query) :
    Except CompilationError Progress := do
  -- Every `MATCH` comes before every `WITH`, wherever it was written.
  let progress ← query.matchClauses.foldlM Progress.addMatch (.start settings)
  query.withClauses.foldlM Progress.addWith progress

/-- The description of the SQL query, and what its columns hold. -/
def Cypher.Query.selection (settings : Settings) (query : Query) :
    Except CompilationError (Sql.Selection × List Projection) := do
  let progress ← query.progress settings
  -- Only labels of slots are checked.  A pattern inside an expression has its own graph.
  (requireKnownLabels settings progress.graph).mapError .binding
  let (layout, progress) ← layoutItems progress .empty query.returnClause.items
  let page ← pageOf query.returnClause
  let selection : Sql.Selection :=
    { distinct := query.returnClause.distinct
      columns := layout.columns
      sources := sourcesOf settings progress.graph
      joins := []
      condition := filterOf settings progress.graph progress.predicates
      grouping := layout.grouping
      aggregated := layout.aggregated
      page }
  return (selection, layout.projections)

def Cypher.Query.compile (settings : Settings) (query : Query) :
    Except CompilationError CompiledQuery := do
  let (selection, projections) ← query.selection settings
  let statement ← selection.assemble.mapError .ofGeneration
  return ⟨statement, projections⟩

def compileQuery (settings : Settings) (text : String) : Except QueryError CompiledQuery := do
  let query ← (Query.parse text).mapError .unreadable
  (query.compile settings).mapError .rejected

end CypherSql
