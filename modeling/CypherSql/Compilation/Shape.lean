import CypherSql.Sql.Lexeme

/-! # Conditions from the shape of a pattern

* `labelCondition` — the row of a slot has one of its labels.
* `runsBetween` — a relation runs from one node to another.
* `endCondition` — a relation joins its two ends the way its arrows ask.
-/

namespace CypherSql.Compilation

open CypherSql.Graph (Direction)
open CypherSql.Sql (Alias Test)

/-- One of the labels is the type of the row; nothing for a slot without labels. -/
def labelCondition (row : Alias) (labels : List String) : Option (Condition Test) :=
  if labels.isEmpty then none
  else some (.any (labels.map fun label => .leaf (.hasType row label)))

def runsBetween (relation start finish : Alias) : Condition Test :=
  .all [.leaf (.runsFrom relation start), .leaf (.runsTo relation finish)]

def endCondition (relation left right : Alias) : Direction → Condition Test
  | .right => runsBetween relation left right
  | .left => runsBetween relation right left
  | .either => .any [runsBetween relation left right, runsBetween relation right left]
  | .both => .all [runsBetween relation left right, runsBetween relation right left]

end CypherSql.Compilation
