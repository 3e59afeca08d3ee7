import CypherSql.Graph.Error
import CypherSql.Ordered

/-! # Query graphs

The nodes and relations that the patterns of a query speak of, and the variables
that name them.  A slot keeps the number of its first mention for good.

* `Graph` — nodes, relations and variables.
* `Graph.mentionAgain` — a further mention of a variable that is bound already.
* `Graph.mentionNode`, `Graph.mentionRelation` — a mention that may add a slot.
* `Graph.find` — what a variable names.

Every operation either fails and leaves the graph as it was, or returns the graph
that comes after it.
-/

namespace CypherSql

open CypherSql.Graph

/-- A node with the labels it was first mentioned with. -/
structure Graph.Node where
  id : Nat
  labels : List String
  scopes : List Scope
  deriving DecidableEq, Repr

structure Graph.Relation where
  id : Nat
  labels : List String
  left : Nat
  right : Nat
  direction : Direction
  scopes : List Scope
  deriving DecidableEq, Repr

/-- Nodes and relations in the order of their first mention, and what each variable
names. -/
structure Graph where
  nodes : List Graph.Node
  relations : List Graph.Relation
  bound : List (String × Slot)
  deriving DecidableEq, Repr

namespace Graph

def empty : Graph :=
  ⟨[], [], []⟩

def slot? (graph : Graph) (variableName : String) : Option Slot :=
  (graph.bound.find? fun entry => entry.1 == variableName).map (·.2)

def find (graph : Graph) (variableName : String) : Except BindingError Slot :=
  match graph.slot? variableName with
  | some slot => .ok slot
  | none => .error (.variableNotFound variableName)

/-- The labels a slot was first mentioned with. -/
def labels (graph : Graph) (slot : Slot) : List String :=
  match slot.kind with
  | .node => (graph.nodes[slot.index]?.map Node.labels).getD []
  | .relation => (graph.relations[slot.index]?.map Relation.labels).getD []

/-- Two lists of labels with the same members. -/
def sameLabels (left right : List String) : Bool :=
  left.all right.contains && right.all left.contains

def addScope (graph : Graph) (slot : Slot) (scope : Scope) : Graph :=
  match slot.kind with
  | .node =>
    { graph with
      nodes := graph.nodes.modify slot.index fun node =>
        { node with scopes := insertOrdered Scope.before scope node.scopes } }
  | .relation =>
    { graph with
      relations := graph.relations.modify slot.index fun relation =>
        { relation with scopes := insertOrdered Scope.before scope relation.scopes } }

/-- A further mention of a variable: the number of its slot, or nothing when it is
not bound.  The variable must have been bound as the same kind of slot, and labels,
where any are given, must be the ones it was bound with. -/
def mentionAgain (graph : Graph) (variableName : String) (kind : SlotKind) (labels : List String)
    (scope : Scope) : Except BindingError (Option Nat × Graph) :=
  match graph.slot? variableName with
  | none => .ok (none, graph)
  | some slot =>
    if slot.kind ≠ kind then .error (.kindConflict variableName slot.kind)
    -- A further mention may leave labels out, but it cannot change them.
    else if !labels.isEmpty && !sameLabels (graph.labels slot) labels then
      .error (.typeConflict variableName)
    else .ok (some slot.index, graph.addScope slot scope)

def bind (graph : Graph) (variableName : Option String) (slot : Slot) : Graph :=
  match variableName with
  | none => graph
  | some name => { graph with bound := graph.bound ++ [(name, slot)] }

/-- An empty name is no name. -/
def properName (variableName : Option String) : Option String :=
  variableName.filter fun name => !name.isEmpty

def mentionAgain? (graph : Graph) (variableName : Option String) (kind : SlotKind)
    (labels : List String) (scope : Scope) : Except BindingError (Option Nat × Graph) :=
  match variableName with
  | none => .ok (none, graph)
  | some name => graph.mentionAgain name kind labels scope

/-- Mentions a node: the number of the node its variable names already, or of a new
one. -/
def mentionNode (graph : Graph) (labels : List String) (variableName : Option String)
    (scope : Scope) : Except BindingError (Nat × Graph) := do
  let name := properName variableName
  match ← graph.mentionAgain? name .node labels scope with
  | (some index, graph) => return (index, graph)
  | (none, graph) =>
    let index := graph.nodes.length
    let node : Node := ⟨index, labels, [scope]⟩
    let grown := { graph with nodes := graph.nodes ++ [node] }
    return (index, grown.bind name ⟨.node, index⟩)

def requireEndpoint (graph : Graph) (index : Nat) : Except BindingError Unit :=
  if index < graph.nodes.length then .ok ()
  else .error (.danglingEndpoint index graph.nodes.length)

/-- Mentions a relation between two nodes: the number of the relation its variable
names already, or of a new one. -/
def mentionRelation (graph : Graph) (labels : List String) (variableName : Option String)
    (left right : Nat) (direction : Direction) (scope : Scope) :
    Except BindingError (Nat × Graph) := do
  -- The ends are checked in every case, though a relation that is bound keeps its own.
  graph.requireEndpoint left
  graph.requireEndpoint right
  let name := properName variableName
  match ← graph.mentionAgain? name .relation labels scope with
  | (some index, graph) => return (index, graph)
  | (none, graph) =>
    let index := graph.relations.length
    let relation : Relation := ⟨index, labels, left, right, direction, [scope]⟩
    let grown := { graph with relations := graph.relations ++ [relation] }
    return (index, grown.bind name ⟨.relation, index⟩)

end Graph

end CypherSql
