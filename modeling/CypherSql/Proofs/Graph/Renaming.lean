import CypherSql.Proofs.Graph.Growth
import CypherSql.Proofs.Parallel

/-! # Graphs under other names

A graph knows its slots by number, and names only lead to them.  When names that are different stay
different, the same mentions under other names lead to the same slots and fail for the same reasons.

* `BindingError.anonymous` — an error without the name that it is about.
* `KeepsApart` — names that are different stay different, and proper.
* `Graph.rename` — the graph in which the slots have other names.
* `Graph.mentionNode_rename`, `Graph.mentionRelation_rename` — what mentions under other names do.
-/

namespace CypherSql.Graph

/-- The error without the name of the variable. -/
def BindingError.anonymous : BindingError → BindingError
  | typeConflict _ => .typeConflict ""
  | kindConflict _ boundAs => .kindConflict "" boundAs
  | variableNotFound _ => .variableNotFound ""
  | error => error

/-- The names of a list get names that are different where they are, and an empty name is the only
one that gets an empty name. -/
structure KeepsApart (σ : String → String) (names : List String) : Prop where
  injective : ∀ x ∈ names, ∀ y ∈ names, σ x = σ y → x = y
  proper : ∀ x ∈ names, σ x = "" ↔ x = ""

def rename (σ : String → String) (graph : Graph) : Graph :=
  { graph with bound := graph.bound.map fun entry => (σ entry.1, entry.2) }

/-- The slots have no other names than these. -/
def NamedBy (graph : Graph) (names : List String) : Prop :=
  ∀ entry ∈ graph.bound, entry.1 ∈ names

variable {σ : String → String} {names : List String} {graph : Graph}

theorem NamedBy.of_unscoped (named : graph.NamedBy names) {after : Graph}
    (same : after.unscoped = graph.unscoped) : after.NamedBy names := by
  rw [NamedBy, bound_eq_of_unscoped same]
  exact named

theorem NamedBy.bind (named : graph.NamedBy names) {name : Option String}
    (isName : ∀ given ∈ name, given ∈ names) (slot : Slot) :
    (graph.bind name slot).NamedBy names := by
  cases name with
  | none => exact named
  | some given =>
    exact List.forall_mem_append.mpr ⟨named, List.forall_mem_singleton.mpr (isName given rfl)⟩

/-! ## Looking names up -/

theorem find?_eq_of_forall {α : Type} {test test' : α → Bool} {xs : List α}
    (same : ∀ x ∈ xs, test x = test' x) : xs.find? test = xs.find? test' := by
  induction xs with
  | nil => rfl
  | cons x xs ih =>
    obtain ⟨first, others⟩ := List.forall_mem_cons.mp same
    rw [List.find?_cons, List.find?_cons, first, ih others]

theorem slot?_rename (apart : KeepsApart σ names) (named : graph.NamedBy names) {name : String}
    (isName : name ∈ names) : (graph.rename σ).slot? (σ name) = graph.slot? name := by
  have same : ∀ entry ∈ graph.bound, (σ entry.1 == σ name) = (entry.1 == name) := by
    intro entry isEntry
    rw [Bool.eq_iff_iff, beq_iff_eq, beq_iff_eq]
    exact ⟨apart.injective _ (named entry isEntry) _ isName, congrArg σ⟩
  rw [slot?, slot?, rename, List.find?_map, Option.map_map, ← find?_eq_of_forall same]
  rfl

theorem properName_rename (apart : KeepsApart σ names) {name : Option String}
    (isName : ∀ given ∈ name, given ∈ names) :
    properName (name.map σ) = (properName name).map σ := by
  cases name with
  | none => rfl
  | some given =>
    have same : (σ given).isEmpty = given.isEmpty := by
      rw [Bool.eq_iff_iff, String.isEmpty_iff, String.isEmpty_iff,
        apart.proper _ (isName given rfl)]
    cases empty : given.isEmpty <;> simp [properName, Option.filter, same, empty]

theorem mem_of_mem_properName {name : Option String} (isName : ∀ given ∈ name, given ∈ names) :
    ∀ given ∈ properName name, given ∈ names :=
  fun given isProper => isName given (Option.filter_eq_some_iff.mp isProper).1

theorem bind_rename (graph : Graph) (name : Option String) (slot : Slot) :
    (graph.rename σ).bind (name.map σ) slot = (graph.bind name slot).rename σ := by
  cases name with
  | none => rfl
  | some name => simp [bind, rename]

theorem addScope_rename (slot : Slot) (scope : Scope) :
    (graph.rename σ).addScope slot scope = (graph.addScope slot scope).rename σ := by
  obtain ⟨kind, index⟩ := slot
  cases kind <;> rfl

/-! ## Mentions -/

/-- The same result, in the graph under other names. -/
def Renamed {α : Type} (σ : String → String) (names : List String) (result result' : α × Graph) :
    Prop :=
  result' = (result.1, result.2.rename σ) ∧ result.2.NamedBy names

section

variable (apart : KeepsApart σ names) (named : graph.NamedBy names)

include apart named

theorem mentionAgain_rename {name : String} (isName : name ∈ names) (kind : SlotKind)
    (labels : List String) (scope : Scope) :
    Alike BindingError.anonymous (Renamed σ names) (graph.mentionAgain name kind labels scope)
      ((graph.rename σ).mentionAgain (σ name) kind labels scope) := by
  unfold mentionAgain
  rw [slot?_rename apart named isName]
  cases graph.slot? name with
  | none => exact .ok ⟨rfl, named⟩
  | some slot =>
    have labels' : (graph.rename σ).labels slot = graph.labels slot := rfl
    dsimp only
    rw [labels']
    split
    · exact .error rfl
    · split
      · exact .error rfl
      · exact .ok ⟨by rw [addScope_rename], named.of_unscoped (unscoped_addScope _ _ _)⟩

variable {name : Option String} (isName : ∀ given ∈ name, given ∈ names)

include isName

theorem mentionAgain?_rename (kind : SlotKind) (labels : List String) (scope : Scope) :
    Alike BindingError.anonymous (Renamed σ names) (graph.mentionAgain? name kind labels scope)
      ((graph.rename σ).mentionAgain? (name.map σ) kind labels scope) := by
  cases name with
  | none => exact .ok ⟨rfl, named⟩
  | some name => exact mentionAgain_rename apart named (isName name rfl) kind labels scope

theorem mentionNode_rename (labels : List String) (scope : Scope) :
    Alike BindingError.anonymous (Renamed σ names) (graph.mentionNode labels name scope)
      ((graph.rename σ).mentionNode labels (name.map σ) scope) := by
  have proper := mem_of_mem_properName isName
  unfold mentionNode
  rw [properName_rename apart isName]
  apply (mentionAgain?_rename apart named proper .node labels scope).bind
  rintro ⟨found, graph⟩ _ ⟨rfl, named⟩
  cases found with
  | some index => exact .ok ⟨rfl, named⟩
  | none =>
    let grown : Graph :=
      { graph with nodes := graph.nodes ++ [⟨graph.nodes.length, labels, [scope]⟩] }
    have grownNamed : grown.NamedBy names := named
    exact .ok ⟨congrArg (Prod.mk _) (bind_rename grown _ _), grownNamed.bind proper _⟩

theorem mentionRelation_rename (labels : List String) (left right : Nat) (direction : Direction)
    (scope : Scope) :
    Alike BindingError.anonymous (Renamed σ names)
      (graph.mentionRelation labels name left right direction scope)
      ((graph.rename σ).mentionRelation labels (name.map σ) left right direction scope) := by
  have proper := mem_of_mem_properName isName
  have endpoint : ∀ index, Alike BindingError.anonymous (fun _ _ => True)
      (graph.requireEndpoint index) ((graph.rename σ).requireEndpoint index) := by
    intro index
    have same : (graph.rename σ).requireEndpoint index = graph.requireEndpoint index := rfl
    rw [same]
    cases graph.requireEndpoint index with
    | error => exact .error rfl
    | ok => exact .ok trivial
  unfold mentionRelation
  rw [properName_rename apart isName]
  apply (endpoint left).bind
  intro _ _ _
  apply (endpoint right).bind
  intro _ _ _
  apply (mentionAgain?_rename apart named proper .relation labels scope).bind
  rintro ⟨found, graph⟩ _ ⟨rfl, named⟩
  cases found with
  | some index => exact .ok ⟨rfl, named⟩
  | none =>
    let grown : Graph :=
      { graph with relations := graph.relations ++
          [⟨graph.relations.length, labels, left, right, direction, [scope]⟩] }
    have grownNamed : grown.NamedBy names := named
    exact .ok ⟨congrArg (Prod.mk _) (bind_rename grown _ _), grownNamed.bind proper _⟩

end

/-! ## The same names -/

theorem keepsApart_id (names : List String) : KeepsApart id names where
  injective _ _ _ _ same := same
  proper _ _ := Iff.rfl

theorem rename_id (graph : Graph) : graph.rename id = graph := by
  show { graph with bound := graph.bound.map id } = graph
  rw [List.map_id]

end CypherSql.Graph
