import CypherSql.Yaml.Scalar

/-! # Nodes of YAML documents

* `Node` — the content of a document.
* `Node.follow` — the node that an alias stands for.
-/

namespace CypherSql.Yaml

/-- The content of a document.  Anchors and the aliases for them are told by numbers. -/
inductive Node where
  | scalar (anchor : Option Nat) (tag : Option String) (text : String) (style : Style)
  | sequence (anchor : Option Nat) (items : List Node)
  | mapping (anchor : Option Nat) (entries : List (Node × Node))
  | alias (number : Nat)

namespace Node

def nothing : Node :=
  .scalar none none "" .plain

mutual

/-- The last node with an anchor, in the order of the text. -/
def anchored? (number : Nat) : Node → Option Node
  | .scalar anchor tag text style =>
    if anchor == some number then some (.scalar anchor tag text style) else none
  | .sequence anchor items =>
    match anchoredItem? number items with
    | some node => some node
    | none => if anchor == some number then some (.sequence anchor items) else none
  | .mapping anchor entries =>
    match anchoredEntry? number entries with
    | some node => some node
    | none => if anchor == some number then some (.mapping anchor entries) else none
  | .alias _ => none

def anchoredItem? (number : Nat) : List Node → Option Node
  | [] => none
  | item :: items =>
    match anchoredItem? number items with
    | some node => some node
    | none => anchored? number item

def anchoredEntry? (number : Nat) : List (Node × Node) → Option Node
  | [] => none
  | (key, value) :: entries =>
    match anchoredEntry? number entries with
    | some node => some node
    | none =>
      match anchored? number value with
      | some node => some node
      | none => anchored? number key

end

/-- The node that `node` stands for in the document `root`. -/
def follow (root node : Node) : Node :=
  match node with
  | .alias number => (anchored? number root).getD node
  | node => node

end Node

end CypherSql.Yaml
