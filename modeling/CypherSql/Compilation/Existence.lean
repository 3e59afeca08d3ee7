import CypherSql.Compilation.Compiled
import CypherSql.Compilation.Shape

/-! # Patterns as tests

A pattern inside an expression holds when some rows match it.  Its slots form a graph
of their own; those whose variable is bound outside are tied to the outer slot by
their number.

* `Embedding` — the graph of the pattern and its ties to the outer graph.
* `existence` — the test for a pattern.
-/

namespace CypherSql.Compilation

open CypherSql.Cypher (Hop NodePattern Pattern RelationshipPattern)
open CypherSql.Graph (Direction Scope Slot SlotKind)
open CypherSql.Sql (Alias Subselect Test)

/-- The pattern as far as it has been read.

* `graph` — its slots.
* `ties` — the tests that tie them to outer slots.
* `tied` — the slots that are tied.
* `touched` — the outer slots that they are tied to. -/
structure Embedding where
  graph : Graph
  ties : List Test
  tied : List Slot
  touched : List Slot

def Embedding.empty : Embedding :=
  ⟨.empty, [], [], []⟩

/-- Ties a slot of the pattern to an outer one, unless it is tied already. -/
def Embedding.tie (embedding : Embedding) (inner outer : Slot) : Embedding :=
  let touched := insertOrdered Slot.before outer embedding.touched
  if embedding.tied.contains inner then { embedding with touched }
  else
    { embedding with
      touched
      tied := insertOrdered Slot.before inner embedding.tied
      ties := embedding.ties ++ [.sameId (.inner inner) (.outer outer)] }

/-- Mentions a variable in the outer graph: the number of its slot, if it is bound. -/
def mentionOuter (name : Option String) (kind : SlotKind) (labels : List String)
    (scope : Scope) : Compile (Option Nat) := do
  let state ← get
  let (index, graph) ← liftBinding (state.graph.mentionAgain? name kind labels scope)
  set { state with graph }
  return index

def Embedding.tieOuter (embedding : Embedding) (name : Option String) (kind : SlotKind)
    (labels : List String) (scope : Scope) (index : Nat) : Compile Embedding := do
  match ← mentionOuter name kind labels scope with
  | some outer => return embedding.tie ⟨kind, index⟩ ⟨kind, outer⟩
  | none => return embedding

def Embedding.addNode (embedding : Embedding) (scope : Scope) (node : NodePattern) :
    Compile (Nat × Embedding) := do
  -- A node of the pattern is a slot of its own, even where its name is bound outside.
  let (index, graph) ← liftBinding (embedding.graph.mentionNode node.labels node.name .clause)
  let embedding ← { embedding with graph }.tieOuter node.name .node node.labels scope index
  return (index, embedding)

def Embedding.addRelation (embedding : Embedding) (scope : Scope)
    (relationship : RelationshipPattern) (left right : Nat) : Compile Embedding := do
  let direction := Direction.ofArrows relationship.leftArrow relationship.rightArrow
  let (index, graph) ← liftBinding (embedding.graph.mentionRelation relationship.labels
    relationship.name left right direction .clause)
  { embedding with graph }.tieOuter relationship.name .relation relationship.labels scope index

def Embedding.addHops (embedding : Embedding) (scope : Scope) (previous : Nat) :
    List Hop → Compile Embedding
  | [] => return embedding
  | hop :: rest => do
    -- Both ends of a relation have their numbers before it is mentioned.
    let (next, embedding) ← embedding.addNode scope hop.node
    let embedding ← embedding.addRelation scope hop.relationship previous next
    embedding.addHops scope next rest

def innerNode (index : Nat) : Alias :=
  .inner ⟨.node, index⟩

def innerRelation (index : Nat) : Alias :=
  .inner ⟨.relation, index⟩

/-- What the rows of the pattern must satisfy: first the ties, then the labels of the
nodes, then the labels and ends of the relations. -/
def Embedding.condition (embedding : Embedding) : Condition Test :=
  let nodes := embedding.graph.nodes.flatMap fun node =>
    (labelCondition (innerNode node.id) node.labels).toList
  let relations := embedding.graph.relations.flatMap fun relation =>
    (labelCondition (innerRelation relation.id) relation.labels).toList ++
      [endCondition (innerRelation relation.id) (innerNode relation.left)
        (innerNode relation.right) relation.direction]
  .all (embedding.ties.map .leaf ++ nodes ++ relations)

/-- The rows that match the pattern.  The condition stays one condition, so this is
never a union. -/
def Embedding.subselect (embedding : Embedding) (settings : Settings) : Subselect where
  sources :=
    embedding.graph.nodes.map (fun node => (settings.assetsTable, innerNode node.id)) ++
      embedding.graph.relations.map fun relation =>
        (settings.relationsTable, innerRelation relation.id)
  condition := embedding.condition.flatten

def freshPattern : Compile Nat := do
  let state ← get
  set { state with nextPattern := state.nextPattern + 1 }
  return state.nextPattern

def existence (settings : Settings) (pattern : Pattern) : Compile Compiled := do
  let scope := Scope.test (← freshPattern)
  let (start, embedding) ← Embedding.empty.addNode scope pattern.node
  let embedding ← embedding.addHops scope start pattern.hops
  return { Compiled.scalar [.existing (embedding.subselect settings)] with
    reads := embedding.touched }

end CypherSql.Compilation
