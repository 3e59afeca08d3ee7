import CypherSql.Graph.Basic
import CypherSql.Proofs.Success

/-! # How a graph grows

A mention either speaks of a slot that is there already, and then only the record of
who mentions it changes, or it adds one slot at the end.

* `Graph.unscoped` — a graph without the record of who mentions its slots.
* `Graph.slot?_bind`, `Graph.KeepsNames` — what names mean in a graph that has grown.
* `Graph.Numbered` — slots are numbered by their places.
* `Graph.mentionAgain_ok`, `Graph.mentionNode_ok`, `Graph.mentionRelation_ok` — all that
  a successful mention can do.
-/

namespace CypherSql.Graph

/-! ## Graphs up to scopes -/

def Node.unscoped (node : Node) : Node :=
  { node with scopes := [] }

def Relation.unscoped (relation : Relation) : Relation :=
  { relation with scopes := [] }

/-- The graph without the record of who mentions its slots. -/
def unscoped (graph : Graph) : Graph where
  nodes := graph.nodes.map Node.unscoped
  relations := graph.relations.map Relation.unscoped
  bound := graph.bound

/-- A list is the same for `f` when a change at one place is none for `f`. -/
theorem map_modify_of_eq {α β : Type} {f : α → β} {change : α → α}
    (same : ∀ x, f (change x) = f x) (index : Nat) (xs : List α) :
    (xs.modify index change).map f = xs.map f := by
  induction xs generalizing index with
  | nil => simp
  | cons x xs ih => cases index <;> simp [same, ih]

@[simp] theorem unscoped_addScope (graph : Graph) (slot : Slot) (scope : Scope) :
    (graph.addScope slot scope).unscoped = graph.unscoped := by
  obtain ⟨kind, index⟩ := slot
  cases kind with
  | node =>
    have nodes : (graph.addScope ⟨.node, index⟩ scope).nodes.map Node.unscoped =
        graph.nodes.map Node.unscoped := by
      apply map_modify_of_eq
      intro node
      rfl
    exact congrArg (fun nodes => (⟨nodes, graph.unscoped.relations, graph.bound⟩ : Graph)) nodes
  | relation =>
    have relations : (graph.addScope ⟨.relation, index⟩ scope).relations.map Relation.unscoped =
        graph.relations.map Relation.unscoped := by
      apply map_modify_of_eq
      intro relation
      rfl
    exact congrArg (fun relations => (⟨graph.unscoped.nodes, relations, graph.bound⟩ : Graph))
      relations

section

variable {earlier later : Graph}

theorem bound_eq_of_unscoped (same : later.unscoped = earlier.unscoped) :
    later.bound = earlier.bound :=
  congrArg (·.bound) same

theorem slot?_eq_of_unscoped (same : later.unscoped = earlier.unscoped) (name : String) :
    later.slot? name = earlier.slot? name := by
  rw [slot?, slot?, bound_eq_of_unscoped same]

theorem length_nodes_eq_of_unscoped (same : later.unscoped = earlier.unscoped) :
    later.nodes.length = earlier.nodes.length := by
  simpa [unscoped] using congrArg (fun graph => graph.nodes.length) same

end

/-! ## Names -/

/-- A name is bound to a slot of its own only where nothing was bound to it before. -/
theorem slot?_bind (graph : Graph) (name : Option String) (slot : Slot) (given : String) :
    (graph.bind name slot).slot? given =
      (graph.slot? given).or (if name = some given then some slot else none) := by
  cases name with
  | none => simp [bind]
  | some name =>
    have last : ([(name, slot)].find? fun entry => entry.1 == given).map (·.2) =
        if some name = some given then some slot else none := by
      by_cases same : name = given <;> simp [same]
    rw [slot?, bind, List.find?_append, Option.map_or, last]
    rfl

/-- Every name that is bound in the one graph means the same in the other. -/
def KeepsNames (earlier later : Graph) : Prop :=
  ∀ name slot, earlier.slot? name = some slot → later.slot? name = some slot

theorem keepsNames_bind (graph : Graph) (name : Option String) (slot : Slot) :
    KeepsNames graph (graph.bind name slot) := by
  intro given other bound
  rw [slot?_bind, bound, Option.some_or]

theorem keepsNames_of_unscoped {earlier later : Graph}
    (same : later.unscoped = earlier.unscoped) : KeepsNames earlier later := by
  intro given slot bound
  rw [slot?_eq_of_unscoped same, bound]

/-! ## Numbers -/

/-- Every slot has its place as its number. -/
structure Numbered (graph : Graph) : Prop where
  nodes : graph.nodes.map Node.id = List.range graph.nodes.length
  relations : graph.relations.map Relation.id = List.range graph.relations.length

theorem numbered_empty : Numbered empty :=
  ⟨rfl, rfl⟩

theorem Numbered.of_unscoped {earlier later : Graph} (numbered : earlier.Numbered)
    (same : later.unscoped = earlier.unscoped) : later.Numbered := by
  have nodes : later.nodes.map Node.unscoped = earlier.nodes.map Node.unscoped :=
    congrArg (·.nodes) same
  have relations : later.relations.map Relation.unscoped = earlier.relations.map Relation.unscoped :=
    congrArg (·.relations) same
  constructor
  · have ids := congrArg (List.map Node.id) nodes
    rw [List.map_map, List.map_map] at ids
    rw [length_nodes_eq_of_unscoped same, ← numbered.nodes]
    exact ids
  · have ids := congrArg (List.map Relation.id) relations
    have lengths := congrArg List.length relations
    rw [List.map_map, List.map_map] at ids
    rw [List.length_map, List.length_map] at lengths
    rw [lengths, ← numbered.relations]
    exact ids

theorem Numbered.bind {graph : Graph} (numbered : graph.Numbered) (name : Option String)
    (slot : Slot) : (graph.bind name slot).Numbered := by
  cases name <;> exact ⟨numbered.nodes, numbered.relations⟩

theorem Numbered.addNode {graph : Graph} (numbered : graph.Numbered) (labels : List String)
    (scopes : List Scope) :
    Numbered { graph with nodes := graph.nodes ++ [⟨graph.nodes.length, labels, scopes⟩] } := by
  refine ⟨?_, numbered.relations⟩
  simp [numbered.nodes, List.range_succ]

theorem Numbered.addRelation {graph : Graph} (numbered : graph.Numbered) (labels : List String)
    (left right : Nat) (direction : Direction) (scopes : List Scope) :
    Numbered { graph with relations := graph.relations ++
      [⟨graph.relations.length, labels, left, right, direction, scopes⟩] } := by
  refine ⟨numbered.nodes, ?_⟩
  simp [numbered.relations, List.range_succ]

theorem getElem?_of_numbers {α : Type} {number : α → Nat} {xs : List α}
    (numbers : xs.map number = List.range xs.length) {x : α} (isOne : x ∈ xs) :
    xs[number x]? = some x := by
  obtain ⟨index, bound, rfl⟩ := List.mem_iff_getElem.mp isOne
  have isIndex : number xs[index] = index := by
    have := congrArg (·[index]?) numbers
    simpa [bound] using this
  rw [isIndex, List.getElem?_eq_getElem bound]

theorem Numbered.labels_node {graph : Graph} (numbered : graph.Numbered) {node : Node}
    (isOne : node ∈ graph.nodes) : graph.labels ⟨.node, node.id⟩ = node.labels := by
  simp [labels, getElem?_of_numbers numbered.nodes isOne]

theorem Numbered.labels_relation {graph : Graph} (numbered : graph.Numbered)
    {relation : Relation} (isOne : relation ∈ graph.relations) :
    graph.labels ⟨.relation, relation.id⟩ = relation.labels := by
  simp [labels, getElem?_of_numbers numbered.relations isOne]

/-! ## Mentions -/

section

variable {graph after : Graph} {labels : List String} {scope : Scope}

/-- A further mention finds nothing, or a slot of the right kind with labels that
agree. -/
theorem mentionAgain_ok {name : String} {kind : SlotKind} {found : Option Nat}
    (mentioned : graph.mentionAgain name kind labels scope = .ok (found, after)) :
    (graph.slot? name = none ∧ found = none ∧ after = graph) ∨
      ∃ slot, graph.slot? name = some slot ∧ slot.kind = kind ∧
        (labels = [] ∨ sameLabels (graph.labels slot) labels = true) ∧
        found = some slot.index ∧ after = graph.addScope slot scope := by
  unfold mentionAgain at mentioned
  cases named : graph.slot? name with
  | none =>
    simp only [named, Except.ok.injEq, Prod.mk.injEq] at mentioned
    exact .inl ⟨rfl, mentioned.1.symm, mentioned.2.symm⟩
  | some slot =>
    simp only [named] at mentioned
    split at mentioned
    · contradiction
    · next sameKind =>
      split at mentioned
      · contradiction
      · next agreeing =>
        simp only [Except.ok.injEq, Prod.mk.injEq] at mentioned
        refine .inr ⟨slot, rfl, Decidable.not_not.mp sameKind, ?_, mentioned.1.symm, mentioned.2.symm⟩
        -- Labels were compared only where some were given.
        cases labels <;> simp_all

theorem mentionAgain?_ok {name : Option String} {kind : SlotKind} {found : Option Nat}
    (mentioned : graph.mentionAgain? name kind labels scope = .ok (found, after)) :
    ((∀ given, name = some given → graph.slot? given = none) ∧ found = none ∧ after = graph) ∨
      ∃ given slot, name = some given ∧ graph.slot? given = some slot ∧ slot.kind = kind ∧
        (labels = [] ∨ sameLabels (graph.labels slot) labels = true) ∧
        found = some slot.index ∧ after = graph.addScope slot scope := by
  cases name with
  | none =>
    simp only [mentionAgain?, Except.ok.injEq, Prod.mk.injEq] at mentioned
    exact .inl ⟨by simp, mentioned.1.symm, mentioned.2.symm⟩
  | some given =>
    rcases mentionAgain_ok mentioned with ⟨unbound, rfl, rfl⟩ | ⟨slot, bound, rest⟩
    · exact .inl ⟨by rintro _ ⟨⟩; exact unbound, rfl, rfl⟩
    · exact .inr ⟨given, slot, rfl, bound, rest⟩

theorem mentionAgain?_unscoped {name : Option String} {kind : SlotKind} {found : Option Nat}
    (mentioned : graph.mentionAgain? name kind labels scope = .ok (found, after)) :
    after.unscoped = graph.unscoped := by
  rcases mentionAgain?_ok mentioned with ⟨_, _, rfl⟩ | ⟨_, _, _, _, _, _, _, rfl⟩
  · rfl
  · exact unscoped_addScope _ _ _

theorem lt_of_requireEndpoint {index : Nat} (there : graph.requireEndpoint index = .ok ()) :
    index < graph.nodes.length := by
  unfold requireEndpoint at there
  split at there
  · assumption
  · contradiction

/-- A mention of a node finds the node its name means, or adds a node and binds the
name to it. -/
theorem mentionNode_ok {name : Option String} {index : Nat}
    (mentioned : graph.mentionNode labels name scope = .ok (index, after)) :
    (∃ given, properName name = some given ∧ graph.slot? given = some ⟨.node, index⟩ ∧
        (labels = [] ∨ sameLabels (graph.labels ⟨.node, index⟩) labels = true) ∧
        after = graph.addScope ⟨.node, index⟩ scope) ∨
      (∀ given, properName name = some given → graph.slot? given = none) ∧
        index = graph.nodes.length ∧
        after = ({ graph with nodes := graph.nodes ++ [⟨index, labels, [scope]⟩] } : Graph).bind
          (properName name) ⟨.node, index⟩ := by
  obtain ⟨⟨found, next⟩, again, result⟩ := bind_eq_ok.mp mentioned
  rcases mentionAgain?_ok again with
    ⟨unbound, rfl, rfl⟩ | ⟨given, ⟨kind, number⟩, isGiven, bound, rfl, agreeing, rfl, rfl⟩
  · obtain ⟨rfl, rfl⟩ := Prod.mk.inj (pure_eq_ok.mp result)
    exact .inr ⟨unbound, rfl, rfl⟩
  · obtain ⟨rfl, rfl⟩ := Prod.mk.inj (pure_eq_ok.mp result)
    exact .inl ⟨given, isGiven, bound, agreeing, rfl⟩

/-- A mention of a relation between two nodes finds the relation its name means,
whatever its ends are, or adds one with these ends and binds the name to it. -/
theorem mentionRelation_ok {name : Option String} {left right index : Nat}
    {direction : Direction}
    (mentioned : graph.mentionRelation labels name left right direction scope =
      .ok (index, after)) :
    left < graph.nodes.length ∧ right < graph.nodes.length ∧
      ((∃ given, properName name = some given ∧ graph.slot? given = some ⟨.relation, index⟩ ∧
          (labels = [] ∨ sameLabels (graph.labels ⟨.relation, index⟩) labels = true) ∧
          after = graph.addScope ⟨.relation, index⟩ scope) ∨
        (∀ given, properName name = some given → graph.slot? given = none) ∧
          index = graph.relations.length ∧
          after = ({ graph with relations := graph.relations ++
            [⟨index, labels, left, right, direction, [scope]⟩] } : Graph).bind
            (properName name) ⟨.relation, index⟩) := by
  obtain ⟨_, leftThere, mentioned⟩ := bind_eq_ok.mp mentioned
  obtain ⟨_, rightThere, mentioned⟩ := bind_eq_ok.mp mentioned
  obtain ⟨⟨found, next⟩, again, result⟩ := bind_eq_ok.mp mentioned
  refine ⟨lt_of_requireEndpoint leftThere, lt_of_requireEndpoint rightThere, ?_⟩
  rcases mentionAgain?_ok again with
    ⟨unbound, rfl, rfl⟩ | ⟨given, ⟨kind, number⟩, isGiven, bound, rfl, agreeing, rfl, rfl⟩
  · obtain ⟨rfl, rfl⟩ := Prod.mk.inj (pure_eq_ok.mp result)
    exact .inr ⟨unbound, rfl, rfl⟩
  · obtain ⟨rfl, rfl⟩ := Prod.mk.inj (pure_eq_ok.mp result)
    exact .inl ⟨given, isGiven, bound, agreeing, rfl⟩

end

end CypherSql.Graph
