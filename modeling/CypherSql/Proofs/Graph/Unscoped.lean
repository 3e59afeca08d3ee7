import CypherSql.Proofs.Graph.Renaming
import CypherSql.Proofs.Graph.Within

/-! # Graphs that differ in who mentions their slots

Which clauses and tests mention a slot is recorded and never asked for, so the same mentions do the
same to graphs that differ in these records only.

* `SameResult` — the same answer, in graphs that differ in the records only.
* `mentionNode_congr`, `mentionRelation_congr` — mentions in two such graphs.
* `RenamedTo` — such graphs, where the slots of the second one have other names too.
-/

namespace CypherSql.Graph

section

variable {earlier later : Graph} (same : later.unscoped = earlier.unscoped)

include same

theorem map_nodes_eq_of_unscoped {α : Type} {f : Node → α}
    (ignores : ∀ node, f node.unscoped = f node) : later.nodes.map f = earlier.nodes.map f := by
  have nodes := congrArg (fun graph => graph.nodes.map f) same
  simpa [unscoped, Function.comp_def, ignores] using nodes

theorem map_relations_eq_of_unscoped {α : Type} {f : Relation → α}
    (ignores : ∀ relation, f relation.unscoped = f relation) :
    later.relations.map f = earlier.relations.map f := by
  have relations := congrArg (fun graph => graph.relations.map f) same
  simpa [unscoped, Function.comp_def, ignores] using relations

theorem labels_eq_of_unscoped (slot : Slot) : later.labels slot = earlier.labels slot := by
  obtain ⟨kind, index⟩ := slot
  cases kind with
  | node =>
    have nodes := map_nodes_eq_of_unscoped same (f := Node.labels) fun _ => rfl
    simpa [labels] using congrArg (·[index]?.getD []) nodes
  | relation =>
    have relations := map_relations_eq_of_unscoped same (f := Relation.labels) fun _ => rfl
    simpa [labels] using congrArg (·[index]?.getD []) relations

end

theorem unscoped_bind (graph : Graph) (name : Option String) (slot : Slot) :
    (graph.bind name slot).unscoped = graph.unscoped.bind name slot := by
  cases name <;> rfl

theorem unscoped_addNode (graph : Graph) (node : Node) :
    ({ graph with nodes := graph.nodes ++ [node] } : Graph).unscoped =
      { graph.unscoped with nodes := graph.unscoped.nodes ++ [node.unscoped] } := by
  simp [unscoped]

theorem unscoped_addRelation (graph : Graph) (relation : Relation) :
    ({ graph with relations := graph.relations ++ [relation] } : Graph).unscoped =
      { graph.unscoped with
        relations := graph.unscoped.relations ++ [relation.unscoped] } := by
  simp [unscoped]

/-! ## Mentions -/

def SameResult {α : Type} (result result' : α × Graph) : Prop :=
  result'.1 = result.1 ∧ result'.2.unscoped = result.2.unscoped

section

variable {graph graph' : Graph} (same : graph'.unscoped = graph.unscoped)

include same

/-- Whether a further mention is allowed, and of what, is for the slots alone to say. -/
theorem mentionAgain_congr (name : String) (kind : SlotKind) (labels : List String)
    (scope scope' : Scope) :
    Alike id SameResult (graph.mentionAgain name kind labels scope)
      (graph'.mentionAgain name kind labels scope') := by
  unfold mentionAgain
  rw [slot?_eq_of_unscoped same]
  cases graph.slot? name with
  | none => exact .ok ⟨rfl, same⟩
  | some slot =>
    dsimp only
    rw [labels_eq_of_unscoped same]
    split
    · exact .error rfl
    · split
      · exact .error rfl
      · exact .ok ⟨rfl, by simpa using same⟩

theorem mentionAgain?_congr (name : Option String) (kind : SlotKind) (labels : List String)
    (scope scope' : Scope) :
    Alike id SameResult (graph.mentionAgain? name kind labels scope)
      (graph'.mentionAgain? name kind labels scope') := by
  cases name with
  | none => exact .ok ⟨rfl, same⟩
  | some name => exact mentionAgain_congr same name kind labels scope scope'

theorem mentionNode_congr (labels : List String) (name : Option String) (scope : Scope) :
    Alike id SameResult (graph.mentionNode labels name scope)
      (graph'.mentionNode labels name scope) := by
  apply (mentionAgain?_congr same _ .node labels scope scope).bind
  rintro ⟨found, graph⟩ ⟨found', graph'⟩ ⟨sameFound, same⟩
  obtain rfl : found' = found := sameFound
  cases found' with
  | some index => exact .ok ⟨rfl, same⟩
  | none =>
    dsimp only at same ⊢
    rw [length_nodes_eq_of_unscoped same]
    refine .ok ⟨rfl, ?_⟩
    rw [unscoped_bind, unscoped_bind, unscoped_addNode, unscoped_addNode, same]

theorem mentionRelation_congr (labels : List String) (name : Option String) (left right : Nat)
    (direction : Direction) (scope : Scope) :
    Alike id SameResult (graph.mentionRelation labels name left right direction scope)
      (graph'.mentionRelation labels name left right direction scope) := by
  have endpoint : ∀ index, graph'.requireEndpoint index = graph.requireEndpoint index := by
    intro index
    rw [requireEndpoint, requireEndpoint, length_nodes_eq_of_unscoped same]
  unfold mentionRelation
  rw [endpoint, endpoint]
  apply (Alike.refl _).bind
  rintro _ _ -
  apply (Alike.refl _).bind
  rintro _ _ -
  apply (mentionAgain?_congr same _ .relation labels scope scope).bind
  rintro ⟨found, graph⟩ ⟨found', graph'⟩ ⟨sameFound, same⟩
  obtain rfl : found' = found := sameFound
  cases found' with
  | some index => exact .ok ⟨rfl, same⟩
  | none =>
    dsimp only at same ⊢
    rw [length_relations_eq_of_unscoped same]
    refine .ok ⟨rfl, ?_⟩
    rw [unscoped_bind, unscoped_bind, unscoped_addRelation, unscoped_addRelation, same]

end

/-! ## Other names -/

/-- The second graph is the first one under other names, but for the records. -/
structure RenamedTo (σ : String → String) (names : List String) (graph graph' : Graph) : Prop where
  unscoped : graph'.unscoped = (graph.rename σ).unscoped
  named : graph.NamedBy names

/-- The same answer, in graphs of which the second is the first one under other names. -/
def RenamedResult {α : Type} (σ : String → String) (names : List String)
    (result result' : α × Graph) : Prop :=
  result'.1 = result.1 ∧ RenamedTo σ names result.2 result'.2

section

variable {σ : String → String} {names : List String} {graph graph' : Graph}

theorem RenamedTo.slot? (apart : KeepsApart σ names) (renamed : RenamedTo σ names graph graph')
    {name : String} (isName : name ∈ names) : graph'.slot? (σ name) = graph.slot? name := by
  rw [slot?_eq_of_unscoped renamed.unscoped, slot?_rename apart renamed.named isName]

/-- A mention under other names, made in a graph with other records. -/
theorem alike_of_renamed {α : Type} {first second third : Except BindingError (α × Graph)}
    (renames : Alike BindingError.anonymous (Renamed σ names) first second)
    (same : Alike id SameResult second third) :
    Alike BindingError.anonymous (RenamedResult σ names) first third := by
  refine (renames.trans same.of_exact).imp ?_
  rintro result final ⟨_, ⟨rfl, named⟩, sameValue, sameGraph⟩
  exact ⟨sameValue, sameGraph, named⟩

variable (apart : KeepsApart σ names) (renamed : RenamedTo σ names graph graph')
  {name : Option String} (isName : ∀ given ∈ name, given ∈ names)

include apart renamed isName

theorem RenamedTo.mentionAgain? (kind : SlotKind) (labels : List String) (scope : Scope) :
    Alike BindingError.anonymous (RenamedResult σ names)
      (graph.mentionAgain? name kind labels scope)
      (graph'.mentionAgain? (name.map σ) kind labels scope) :=
  alike_of_renamed (mentionAgain?_rename apart renamed.named isName kind labels scope)
    (mentionAgain?_congr renamed.unscoped _ kind labels scope scope)

theorem RenamedTo.mentionNode (labels : List String) (scope : Scope) :
    Alike BindingError.anonymous (RenamedResult σ names) (graph.mentionNode labels name scope)
      (graph'.mentionNode labels (name.map σ) scope) :=
  alike_of_renamed (mentionNode_rename apart renamed.named isName labels scope)
    (mentionNode_congr renamed.unscoped labels _ scope)

theorem RenamedTo.mentionRelation (labels : List String) (left right : Nat)
    (direction : Direction) (scope : Scope) :
    Alike BindingError.anonymous (RenamedResult σ names)
      (graph.mentionRelation labels name left right direction scope)
      (graph'.mentionRelation labels (name.map σ) left right direction scope) :=
  alike_of_renamed
    (mentionRelation_rename apart renamed.named isName labels left right direction scope)
    (mentionRelation_congr renamed.unscoped labels _ left right direction scope)

end

end CypherSql.Graph
