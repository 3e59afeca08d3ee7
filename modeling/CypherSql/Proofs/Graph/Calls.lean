import CypherSql.Proofs.Graph.Growth
import Mathlib.Data.List.Nodup

/-! # Every graph that calls can bring about

A graph is built by calls that mention slots, in any order and with any arguments.  Some fail,
and then the graph stays as it was.  Whatever the calls are, the slots are numbered by their
places, relations have ends that exist, and every name has a slot of its own.

* `Call`, `run` — the calls, and the graph after a sequence of them.
* `Change` — all that one call can do.
* `WellFormed` — what holds of every graph that calls bring about.
* `Extends` — what calls leave as it was.
-/

namespace CypherSql.Graph

/-! ## Calls -/

/-- A call that mentions a slot, with everything that it is given. -/
inductive Call where
  | node (labels : List String) (name : Option String) (scope : Scope)
  | relation (labels : List String) (name : Option String) (left right : Nat)
      (direction : Direction) (scope : Scope)
  | again (name : String) (kind : SlotKind) (labels : List String) (scope : Scope)

/-- The graph that a call returns, if it succeeds. -/
def Call.result (graph : Graph) : Call → Except BindingError Graph
  | node labels name scope => do return (← graph.mentionNode labels name scope).2
  | relation labels name left right direction scope => do
    return (← graph.mentionRelation labels name left right direction scope).2
  | again name kind labels scope => do return (← graph.mentionAgain name kind labels scope).2

/-- The graph after a call.  A call that fails leaves it as it was. -/
def after (graph : Graph) (call : Call) : Graph :=
  match call.result graph with
  | .ok next => next
  | .error _ => graph

def run (graph : Graph) (calls : List Call) : Graph :=
  calls.foldl after graph

/-! ## What one call does -/

/-- A call leaves the graph, records who mentions a slot, or adds one slot at the end, under a
name that was free or under none. -/
inductive Change (graph : Graph) : Graph → Prop
  | none : Change graph graph
  | scope (slot : Slot) (scope : Scope) : Change graph (graph.addScope slot scope)
  | node (labels : List String) (name : Option String) (scope : Scope)
      (unbound : ∀ given, properName name = some given → graph.slot? given = Option.none) :
      Change graph (({ graph with
        nodes := graph.nodes ++ [⟨graph.nodes.length, labels, [scope]⟩] } : Graph).bind
          (properName name) ⟨.node, graph.nodes.length⟩)
  | relation (labels : List String) (name : Option String) {left right : Nat}
      (direction : Direction) (scope : Scope)
      (leftThere : left < graph.nodes.length) (rightThere : right < graph.nodes.length)
      (unbound : ∀ given, properName name = some given → graph.slot? given = Option.none) :
      Change graph (({ graph with
        relations := graph.relations ++
          [⟨graph.relations.length, labels, left, right, direction, [scope]⟩] } : Graph).bind
          (properName name) ⟨.relation, graph.relations.length⟩)

section

variable {graph next : Graph} {labels : List String} {scope : Scope}

theorem change_of_mentionAgain {name : String} {kind : SlotKind} {found : Option Nat}
    (mentioned : graph.mentionAgain name kind labels scope = .ok (found, next)) :
    Change graph next := by
  rcases mentionAgain_ok mentioned with ⟨_, _, rfl⟩ | ⟨slot, _, _, _, _, rfl⟩
  · exact .none
  · exact .scope slot scope

theorem change_of_mentionNode {name : Option String} {index : Nat}
    (mentioned : graph.mentionNode labels name scope = .ok (index, next)) : Change graph next := by
  rcases mentionNode_ok mentioned with ⟨_, _, _, _, rfl⟩ | ⟨unbound, rfl, rfl⟩
  · exact .scope _ scope
  · exact .node labels name scope unbound

theorem change_of_mentionRelation {name : Option String} {left right index : Nat}
    {direction : Direction}
    (mentioned : graph.mentionRelation labels name left right direction scope =
      .ok (index, next)) : Change graph next := by
  obtain ⟨leftThere, rightThere, outcome⟩ := mentionRelation_ok mentioned
  rcases outcome with ⟨_, _, _, _, rfl⟩ | ⟨unbound, rfl, rfl⟩
  · exact .scope _ scope
  · exact .relation labels name direction scope leftThere rightThere unbound

end

theorem change_after (graph : Graph) (call : Call) : Change graph (graph.after call) := by
  unfold after
  cases called : call.result graph with
  | error error => exact .none
  | ok next =>
    cases call with
    | node labels name scope =>
      obtain ⟨⟨index, last⟩, mentioned, result⟩ := bind_eq_ok.mp called
      obtain rfl := pure_eq_ok.mp result
      exact change_of_mentionNode mentioned
    | relation labels name left right direction scope =>
      obtain ⟨⟨index, last⟩, mentioned, result⟩ := bind_eq_ok.mp called
      obtain rfl := pure_eq_ok.mp result
      exact change_of_mentionRelation mentioned
    | again name kind labels scope =>
      obtain ⟨⟨found, last⟩, mentioned, result⟩ := bind_eq_ok.mp called
      obtain rfl := pure_eq_ok.mp result
      exact change_of_mentionAgain mentioned

/-! ## Well-formed graphs -/

/-- How many slots of a kind there are. -/
def size (graph : Graph) : SlotKind → Nat
  | .node => graph.nodes.length
  | .relation => graph.relations.length

/-- Slots are numbered by their places, the ends of relations are nodes, and the variables are
names, each of them bound once and to a slot that no other variable has. -/
structure WellFormed (graph : Graph) : Prop where
  numbered : graph.Numbered
  ends : ∀ relation ∈ graph.relations,
    relation.left < graph.nodes.length ∧ relation.right < graph.nodes.length
  named : ∀ entry ∈ graph.bound, entry.1 ≠ "" ∧ entry.2.index < graph.size entry.2.kind
  once : (graph.bound.map Prod.fst).Nodup
  apart : (graph.bound.map Prod.snd).Nodup

theorem wellFormed_empty : WellFormed empty :=
  ⟨numbered_empty, by simp [empty], by simp [empty], List.nodup_nil, List.nodup_nil⟩

theorem slot?_eq_some {graph : Graph} {name : String} {slot : Slot}
    (bound : graph.slot? name = some slot) : (name, slot) ∈ graph.bound := by
  obtain ⟨⟨given, _⟩, found, rfl⟩ := Option.map_eq_some_iff.mp bound
  obtain rfl : given = name := by simpa using List.find?_some found
  exact List.mem_of_find?_eq_some found

theorem not_mem_of_slot? {graph : Graph} {name : String} (unbound : graph.slot? name = none) :
    name ∉ graph.bound.map Prod.fst := by
  intro isOne
  obtain ⟨entry, isEntry, rfl⟩ := List.mem_map.mp isOne
  have others := List.find?_eq_none.mp (Option.map_eq_none_iff.mp unbound) entry isEntry
  simp at others

theorem properName_eq_some {name : Option String} {given : String}
    (proper : properName name = some given) : given ≠ "" := by
  have visible := (Option.filter_eq_some_iff.mp proper).2
  rintro rfl
  contradiction

namespace WellFormed

variable {graph : Graph} (wellFormed : graph.WellFormed)

include wellFormed

theorem index_lt {name : String} {slot : Slot} (bound : graph.slot? name = some slot) :
    slot.index < graph.size slot.kind :=
  (wellFormed.named _ (slot?_eq_some bound)).2

/-- No slot has two names. -/
theorem eq_of_slot? {first second : String} {slot : Slot} (left : graph.slot? first = some slot)
    (right : graph.slot? second = some slot) : first = second := by
  have same := List.inj_on_of_nodup_map wellFormed.apart (slot?_eq_some left) (slot?_eq_some right)
    rfl
  exact congrArg Prod.fst same

theorem of_unscoped {later : Graph} (same : later.unscoped = graph.unscoped) :
    later.WellFormed := by
  have nodes : later.nodes.length = graph.nodes.length := length_nodes_eq_of_unscoped same
  have relations : later.relations.map Relation.unscoped =
      graph.relations.map Relation.unscoped := congrArg (·.relations) same
  have bound : later.bound = graph.bound := bound_eq_of_unscoped same
  constructor
  case numbered => exact wellFormed.numbered.of_unscoped same
  case ends =>
    intro relation isOne
    -- The same relation stands in the other graph, with the same ends.
    have there : relation.unscoped ∈ graph.relations.map Relation.unscoped :=
      relations ▸ List.mem_map_of_mem isOne
    obtain ⟨other, isOther, sameEnds⟩ := List.mem_map.mp there
    have left : other.left = relation.left := congrArg (·.left) sameEnds
    have right : other.right = relation.right := congrArg (·.right) sameEnds
    rw [nodes, ← left, ← right]
    exact wellFormed.ends other isOther
  case named =>
    have sizes : later.size = graph.size := by
      funext kind
      cases kind with
      | node => exact nodes
      | relation => simpa [size] using congrArg List.length relations
    rw [bound, sizes]
    exact wellFormed.named
  case once => exact bound ▸ wellFormed.once
  case apart => exact bound ▸ wellFormed.apart

/-- A slot that is not there has no name. -/
theorem not_mem_bound {slot : Slot} (beyond : graph.size slot.kind ≤ slot.index) :
    slot ∉ graph.bound.map Prod.snd := by
  intro isOne
  obtain ⟨entry, isEntry, rfl⟩ := List.mem_map.mp isOne
  have there := (wellFormed.named entry isEntry).2
  omega

/-- A graph stays well formed when its last slot, which no variable has yet, gets a name that
is free. -/
theorem bind {name : Option String} (unbound : ∀ given, properName name = some given →
      graph.slot? given = none) {slot : Slot} (there : slot.index < graph.size slot.kind)
    (fresh : slot ∉ graph.bound.map Prod.snd) :
    (graph.bind (properName name) slot).WellFormed := by
  cases proper : properName name with
  | none => exact wellFormed
  | some given =>
    have bound : (graph.bind (some given) slot).bound = graph.bound ++ [(given, slot)] := rfl
    constructor
    case numbered => exact wellFormed.numbered.bind _ _
    case ends => exact wellFormed.ends
    case named =>
      rw [bound, List.forall_mem_append]
      refine ⟨wellFormed.named, List.forall_mem_singleton.mpr ⟨properName_eq_some proper, there⟩⟩
    case once =>
      rw [bound, List.map_append]
      exact wellFormed.once.append (List.nodup_singleton given)
        (List.disjoint_singleton.mpr (not_mem_of_slot? (unbound given proper)))
    case apart =>
      rw [bound, List.map_append]
      exact wellFormed.apart.append (List.nodup_singleton slot) (List.disjoint_singleton.mpr fresh)

theorem change {next : Graph} (changed : Change graph next) : next.WellFormed := by
  cases changed with
  | none => exact wellFormed
  | scope slot scope => exact wellFormed.of_unscoped (unscoped_addScope graph slot scope)
  | node labels name scope unbound =>
    have grown : WellFormed { graph with
        nodes := graph.nodes ++ [⟨graph.nodes.length, labels, [scope]⟩] } := by
      constructor
      case numbered => exact wellFormed.numbered.addNode labels [scope]
      case ends =>
        intro relation isOne
        have there := wellFormed.ends relation isOne
        simp only [List.length_append, List.length_singleton]
        omega
      case named =>
        intro entry isOne
        obtain ⟨proper, there⟩ := wellFormed.named entry isOne
        refine ⟨proper, Nat.lt_of_lt_of_le there ?_⟩
        cases entry.2.kind <;> simp [size]
      case once => exact wellFormed.once
      case apart => exact wellFormed.apart
    apply grown.bind (by exact unbound)
    · simp [size]
    · exact wellFormed.not_mem_bound (Nat.le_refl _)
  | @relation labels name left right direction scope leftThere rightThere unbound =>
    have grown : WellFormed { graph with
        relations := graph.relations ++
          [⟨graph.relations.length, labels, left, right, direction, [scope]⟩] } := by
      constructor
      case numbered => exact wellFormed.numbered.addRelation labels left right direction [scope]
      case ends =>
        exact List.forall_mem_append.mpr
          ⟨wellFormed.ends, List.forall_mem_singleton.mpr ⟨leftThere, rightThere⟩⟩
      case named =>
        intro entry isOne
        obtain ⟨proper, there⟩ := wellFormed.named entry isOne
        refine ⟨proper, Nat.lt_of_lt_of_le there ?_⟩
        cases entry.2.kind <;> simp [size]
      case once => exact wellFormed.once
      case apart => exact wellFormed.apart
    apply grown.bind (by exact unbound)
    · simp [size]
    · exact wellFormed.not_mem_bound (Nat.le_refl _)

theorem run (calls : List Call) : (graph.run calls).WellFormed := by
  induction calls generalizing graph with
  | nil => exact wellFormed
  | cons call rest ih => exact ih (wellFormed.change (change_after graph call))

end WellFormed

/-! ## What stays -/

theorem subset_insertOrdered {α : Type} {before : α → α → Bool} {x : α} {set : List α} :
    set ⊆ insertOrdered before x set := by
  intro y isOne
  fun_induction insertOrdered before x set with
  | case1 => contradiction
  | case2 => exact List.mem_cons_of_mem _ isOne
  | case3 z rest _ _ ih =>
    rcases List.mem_cons.mp isOne with rfl | later
    · exact List.mem_cons_self
    · exact List.mem_cons_of_mem _ (ih later)
  | case4 => exact isOne

/-- Who mentions a slot. -/
def scopes (graph : Graph) (slot : Slot) : List Scope :=
  match slot.kind with
  | .node => (graph.nodes[slot.index]?.map Node.scopes).getD []
  | .relation => (graph.relations[slot.index]?.map Relation.scopes).getD []

theorem mem_scopes_node {graph : Graph} {index : Nat} {scope : Scope} :
    scope ∈ graph.scopes ⟨.node, index⟩ ↔
      ∃ node, graph.nodes[index]? = some node ∧ scope ∈ node.scopes := by
  cases there : graph.nodes[index]? <;> simp [scopes, there]

theorem mem_scopes_relation {graph : Graph} {index : Nat} {scope : Scope} :
    scope ∈ graph.scopes ⟨.relation, index⟩ ↔
      ∃ relation, graph.relations[index]? = some relation ∧ scope ∈ relation.scopes := by
  cases there : graph.relations[index]? <;> simp [scopes, there]

/-- All slots of the one graph are those of the other in the same places, with their labels,
ends and directions.  Names keep their slots, and no slot loses a scope. -/
structure Extends (earlier later : Graph) : Prop where
  nodes : earlier.nodes.map Node.unscoped <+: later.nodes.map Node.unscoped
  relations : earlier.relations.map Relation.unscoped <+: later.relations.map Relation.unscoped
  bound : earlier.bound <+: later.bound
  scopes : ∀ slot, earlier.scopes slot ⊆ later.scopes slot

namespace Extends

theorem refl (graph : Graph) : Extends graph graph :=
  ⟨List.prefix_rfl, List.prefix_rfl, List.prefix_rfl, fun _ => List.Subset.refl _⟩

theorem trans {first second third : Graph} (left : Extends first second)
    (right : Extends second third) : Extends first third where
  nodes := left.nodes.trans right.nodes
  relations := left.relations.trans right.relations
  bound := left.bound.trans right.bound
  scopes slot := List.Subset.trans (left.scopes slot) (right.scopes slot)

theorem of_prefix {earlier later : Graph} (nodes : earlier.nodes <+: later.nodes)
    (relations : earlier.relations <+: later.relations) (bound : earlier.bound <+: later.bound) :
    Extends earlier later where
  nodes := nodes.map Node.unscoped
  relations := relations.map Relation.unscoped
  bound := bound
  scopes := by
    rintro ⟨kind, index⟩ scope mentioned
    cases kind with
    | node =>
      obtain ⟨node, there, isOne⟩ := mem_scopes_node.mp mentioned
      obtain ⟨inRange, rfl⟩ := List.getElem?_eq_some_iff.mp there
      exact mem_scopes_node.mpr ⟨_, List.prefix_iff_getElem?.mp nodes index inRange, isOne⟩
    | relation =>
      obtain ⟨relation, there, isOne⟩ := mem_scopes_relation.mp mentioned
      obtain ⟨inRange, rfl⟩ := List.getElem?_eq_some_iff.mp there
      exact mem_scopes_relation.mpr ⟨_, List.prefix_iff_getElem?.mp relations index inRange, isOne⟩

theorem addScope (graph : Graph) (slot : Slot) (scope : Scope) :
    Extends graph (graph.addScope slot scope) := by
  have same := unscoped_addScope graph slot scope
  have nodes : (graph.addScope slot scope).nodes.map Node.unscoped =
      graph.nodes.map Node.unscoped := congrArg (·.nodes) same
  have relations : (graph.addScope slot scope).relations.map Relation.unscoped =
      graph.relations.map Relation.unscoped := congrArg (·.relations) same
  refine ⟨nodes ▸ List.prefix_rfl, relations ▸ List.prefix_rfl,
    bound_eq_of_unscoped same ▸ List.prefix_rfl, ?_⟩
  rintro ⟨kind, index⟩ other mentioned
  obtain ⟨changedKind, changed⟩ := slot
  -- Only the slot that is mentioned has another set of scopes, and that one is larger.
  cases kind with
  | node =>
    obtain ⟨node, there, isOne⟩ := mem_scopes_node.mp mentioned
    rw [mem_scopes_node]
    cases changedKind with
    | node =>
      by_cases here : changed = index
      · simp [Graph.addScope, here, there, subset_insertOrdered isOne]
      · simp [Graph.addScope, here, there, isOne]
    | relation => exact ⟨node, there, isOne⟩
  | relation =>
    obtain ⟨relation, there, isOne⟩ := mem_scopes_relation.mp mentioned
    rw [mem_scopes_relation]
    cases changedKind with
    | node => exact ⟨relation, there, isOne⟩
    | relation =>
      by_cases here : changed = index
      · simp [Graph.addScope, here, there, subset_insertOrdered isOne]
      · simp [Graph.addScope, here, there, isOne]

theorem bind (graph : Graph) (name : Option String) (slot : Slot) :
    Extends graph (graph.bind name slot) := by
  apply of_prefix
  · cases name <;> exact List.prefix_rfl
  · cases name <;> exact List.prefix_rfl
  · cases name with
    | none => exact List.prefix_rfl
    | some name => exact List.prefix_append _ _

theorem change {graph next : Graph} (changed : Change graph next) : Extends graph next := by
  cases changed with
  | none => exact refl graph
  | scope slot scope => exact addScope graph slot scope
  | node =>
    refine trans ?_ (bind _ _ _)
    exact of_prefix (List.prefix_append _ _) List.prefix_rfl List.prefix_rfl
  | relation =>
    refine trans ?_ (bind _ _ _)
    exact of_prefix List.prefix_rfl (List.prefix_append _ _) List.prefix_rfl

theorem run (graph : Graph) (calls : List Call) : Extends graph (graph.run calls) := by
  induction calls generalizing graph with
  | nil => exact refl graph
  | cons call rest ih => exact (change (change_after graph call)).trans (ih _)

end Extends

end CypherSql.Graph
