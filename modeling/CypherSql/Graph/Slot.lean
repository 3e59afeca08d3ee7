/-! # Slots of a graph

* `Slot` — a node or a relation by its number.
* `Scope` — the kind of clause that mentions a slot.
* `Direction` — which way a relation may run between its two ends.
-/

namespace CypherSql.Graph

inductive SlotKind where
  | node
  | relation
  deriving DecidableEq, Repr

def SlotKind.noun : SlotKind → String
  | node => "node"
  | relation => "relation"

structure Slot where
  kind : SlotKind
  index : Nat
  deriving DecidableEq, Repr

/-- Nodes come before relations, and each kind is ordered by number. -/
def Slot.before (left right : Slot) : Bool :=
  match left.kind, right.kind with
  | .node, .relation => true
  | .relation, .node => false
  | _, _ => left.index < right.index

/-- What mentioned a slot: a `MATCH` clause, or the test for a pattern with the given
number. -/
inductive Scope where
  | clause
  | test (pattern : Nat)
  deriving DecidableEq, Repr

def Scope.before : Scope → Scope → Bool
  | clause, test _ => true
  | test left, test right => left < right
  | _, clause => false

/-- Which way a relation runs, seen from its left end: to the left, to the right,
either way or both ways at once. -/
inductive Direction where
  | left
  | right
  | either
  | both
  deriving DecidableEq, Repr

def Direction.ofArrows (leftArrow rightArrow : Bool) : Direction :=
  match leftArrow, rightArrow with
  | false, false => either
  | true, true => both
  | true, false => left
  | false, true => right

end CypherSql.Graph
