import CypherSql.Compilation.Compiled
import CypherSql.Compilation.Shape

/-! # The filter of a query

* `Predicates` — the predicates of all `WHERE` clauses and the nodes they read.
* `effectiveDirection` — the direction in which a relation is matched.
* `filterOf` — everything the rows of a result have to satisfy.
-/

namespace CypherSql.Compilation

open CypherSql.Graph (Direction Slot SlotKind)
open CypherSql.Sql (Alias Fragment Leaf Test)

/-! ## Predicates -/

/-- The predicates of the `WHERE` clauses, in order, and the numbers of the nodes
that some predicate reads. -/
structure Predicates where
  fragments : List Fragment
  readNodes : List Nat

def Predicates.empty : Predicates :=
  ⟨[], []⟩

def nodeIndices (slots : List Slot) : List Nat :=
  (slots.filter fun slot => slot.kind == .node).map Slot.index

def Predicates.add (predicates : Predicates) (compiled : Compiled) : Predicates where
  fragments := predicates.fragments ++ [compiled.conjunct]
  readNodes := predicates.readNodes ++ nodeIndices compiled.reads

/-! ## Directions -/

/-- Whether nothing tells a node from any other: it has no labels, and no predicate
reads it. -/
def unconstrained (graph : Graph) (predicates : Predicates) (index : Nat) : Bool :=
  (graph.labels ⟨.node, index⟩).isEmpty && !predicates.readNodes.contains index

/-- The direction in which a relation is matched.  An undirected relation that is the
only one and whose ends are unconstrained matches the same pairs of rows both ways up
to exchanging them, so one way is enough. -/
def effectiveDirection (settings : Settings) (graph : Graph) (predicates : Predicates)
    (relation : Graph.Relation) : Direction :=
  if relation.direction == .either && settings.optimizeEitherDirection &&
      graph.relations.length == 1 && unconstrained graph predicates relation.left &&
      unconstrained graph predicates relation.right then .right
  else relation.direction

/-! ## The whole filter -/

def nodeRow (index : Nat) : Alias :=
  .outer ⟨.node, index⟩

def relationRow (index : Nat) : Alias :=
  .outer ⟨.relation, index⟩

def labelConditions (graph : Graph) : List (Condition Test) :=
  graph.nodes.flatMap (fun node => (labelCondition (nodeRow node.id) node.labels).toList) ++
    graph.relations.flatMap fun relation =>
      (labelCondition (relationRow relation.id) relation.labels).toList

def endConditions (settings : Settings) (graph : Graph) (predicates : Predicates) :
    List (Condition Test) :=
  graph.relations.map fun relation =>
    endCondition (relationRow relation.id) (nodeRow relation.left)
      (nodeRow relation.right) (effectiveDirection settings graph predicates relation)

/-- Labels, then ends, then predicates, all in one conjunction. -/
def filterOf (settings : Settings) (graph : Graph) (predicates : Predicates) :
    Condition Leaf :=
  .all ((labelConditions graph ++ endConditions settings graph predicates).map
      (Condition.map Leaf.shape) ++
    -- A predicate is one leaf, so that an `OR` inside it makes no union.
    predicates.fragments.map fun fragment => .leaf (.predicate fragment))

end CypherSql.Compilation
