import CypherSql.Graph.Slot

/-! # Errors of binding

What can be wrong with the names, ends and labels of a graph, and the words for it.
-/

namespace CypherSql.Graph

inductive BindingError where
  | typeConflict (variableName : String)
  | kindConflict (variableName : String) (boundAs : SlotKind)
  | variableNotFound (variableName : String)
  | danglingEndpoint (index nodeCount : Nat)
  | unknownAssetType (label : String)
  | unknownRelationType (label : String)
  deriving DecidableEq, Repr

def BindingError.message : BindingError → String
  | typeConflict variableName =>
    "Redefinition of variable " ++ variableName ++ " with different type"
  | kindConflict variableName boundAs =>
    "Variable " ++ variableName ++ " is already bound to a " ++ boundAs.noun
  | variableNotFound variableName => "Variable `" ++ variableName ++ "` not found"
  | danglingEndpoint index nodeCount =>
    "Relation endpoint " ++ toString index ++ " does not exist (graph has " ++
      toString nodeCount ++ " nodes)"
  | unknownAssetType label => "Asset type `" ++ label ++ "` does not exist"
  | unknownRelationType label => "Relation type `" ++ label ++ "` does not exist"

end CypherSql.Graph
