import CypherSql.Proofs.Graph.Calls

/-! # Graphs that later ones contain

* `Within` — a graph whose slots are those of a later one, up to who mentions a slot.
* `slots`, `Within.slots` — all slots of a graph, and that none are lost.
* `slot?_of_mentionNode`, `slot?_of_mentionRelation` — what names mean behind a mention,
  `isSome_slot?_of_mentionNode`, `isSome_slot?_of_mentionRelation` — which of them are bound.
-/

namespace CypherSql.Graph

/-- The slots of the one graph are those of the other in the same places, with their labels and
ends. -/
structure Within (earlier later : Graph) : Prop where
  nodes : earlier.unscoped.nodes <+: later.unscoped.nodes
  relations : earlier.unscoped.relations <+: later.unscoped.relations

namespace Within

variable {earlier later : Graph}

theorem of_unscoped (same : later.unscoped = earlier.unscoped) : earlier.Within later where
  nodes := same ▸ List.prefix_rfl
  relations := same ▸ List.prefix_rfl

theorem of_extends (extends' : earlier.Extends later) : earlier.Within later :=
  ⟨extends'.nodes, extends'.relations⟩

theorem trans {last : Graph} (first : earlier.Within later) (second : later.Within last) :
    earlier.Within last :=
  ⟨first.nodes.trans second.nodes, first.relations.trans second.relations⟩

end Within

/-! ## Slots -/

/-- Nodes first, then relations, each by their numbers. -/
def slots (graph : Graph) : List Slot :=
  (List.range graph.nodes.length).map (⟨.node, ·⟩) ++
    (List.range graph.relations.length).map (⟨.relation, ·⟩)

theorem mem_slots {graph : Graph} {slot : Slot} :
    slot ∈ graph.slots ↔ slot.index < graph.size slot.kind := by
  obtain ⟨kind, index⟩ := slot
  cases kind <;> simp [slots, size]

theorem nodup_slots (graph : Graph) : graph.slots.Nodup := by
  refine (List.nodup_range.map ?_).append (List.nodup_range.map ?_) ?_
  · exact fun _ _ same => congrArg Slot.index same
  · exact fun _ _ same => congrArg Slot.index same
  · intro slot isNode isRelation
    obtain ⟨_, _, rfl⟩ := List.mem_map.mp isNode
    obtain ⟨_, _, same⟩ := List.mem_map.mp isRelation
    nomatch congrArg Slot.kind same

theorem length_relations_eq_of_unscoped {earlier later : Graph}
    (same : later.unscoped = earlier.unscoped) :
    later.relations.length = earlier.relations.length := by
  simpa [unscoped] using congrArg (·.relations.length) same

theorem Within.slots {earlier later : Graph} (within : earlier.Within later) :
    earlier.slots ⊆ later.slots := by
  intro slot isSlot
  rw [mem_slots] at isSlot ⊢
  have nodes := within.nodes.length_le
  have relations := within.relations.length_le
  simp only [unscoped, List.length_map] at nodes relations
  obtain ⟨kind, index⟩ := slot
  cases kind
  · exact Nat.lt_of_lt_of_le isSlot nodes
  · exact Nat.lt_of_lt_of_le isSlot relations

/-! ## Names that mentions bind -/

theorem slot?_bind_eq_some {graph : Graph} {name : Option String}
    (unbound : ∀ given, name = some given → graph.slot? given = none) {slot found : Slot}
    {given : String} : (graph.bind name slot).slot? given = some found ↔
      graph.slot? given = some found ∨ name = some given ∧ found = slot := by
  rw [slot?_bind, Option.or_eq_some_iff]
  constructor
  · rintro (early | ⟨_, late⟩)
    · exact .inl early
    · split at late
      · next isGiven => exact .inr ⟨isGiven, (Option.some.inj late).symm⟩
      · contradiction
  · rintro (early | ⟨isGiven, rfl⟩)
    · exact .inl early
    · exact .inr ⟨unbound given isGiven, if_pos isGiven⟩

theorem slot?_addScope_eq_some {graph : Graph} {again given : String} {slot found : Slot}
    (bound : graph.slot? again = some slot) (scope : Scope) :
    (graph.addScope slot scope).slot? given = some found ↔
      graph.slot? given = some found ∨ some again = some given ∧ found = slot := by
  rw [slot?_eq_of_unscoped (unscoped_addScope _ _ _)]
  constructor
  · exact .inl
  · rintro (early | ⟨same, rfl⟩)
    · exact early
    · rwa [← Option.some.inj same]

variable {graph after : Graph} {labels : List String} {name : Option String} {scope : Scope}
  {found : Slot} {given : String}

/-- Behind a mention the name means the slot, and all others mean what they did. -/
theorem slot?_of_mentionNode {index : Nat}
    (mentioned : graph.mentionNode labels name scope = .ok (index, after)) :
    after.slot? given = some found ↔
      graph.slot? given = some found ∨ properName name = some given ∧ found = ⟨.node, index⟩ := by
  rcases mentionNode_ok mentioned with ⟨again, isAgain, bound, _, rfl⟩ | ⟨unbound, rfl, rfl⟩
  · rw [isAgain]
    exact slot?_addScope_eq_some bound scope
  · refine slot?_bind_eq_some ?_
    exact unbound

theorem slot?_of_mentionRelation {left right index : Nat} {direction : Direction}
    (mentioned : graph.mentionRelation labels name left right direction scope =
      .ok (index, after)) : after.slot? given = some found ↔
        graph.slot? given = some found ∨
          properName name = some given ∧ found = ⟨.relation, index⟩ := by
  obtain ⟨_, _, mentioned⟩ := mentionRelation_ok mentioned
  rcases mentioned with ⟨again, isAgain, bound, _, rfl⟩ | ⟨unbound, rfl, rfl⟩
  · rw [isAgain]
    exact slot?_addScope_eq_some bound scope
  · refine slot?_bind_eq_some ?_
    exact unbound

theorem isSome_slot?_of_mentionNode {index : Nat}
    (mentioned : graph.mentionNode labels name scope = .ok (index, after)) (given : String) :
    (after.slot? given).isSome = true ↔
      (graph.slot? given).isSome = true ∨ properName name = some given := by
  simp [Option.isSome_iff_exists, slot?_of_mentionNode mentioned, exists_or]

theorem isSome_slot?_of_mentionRelation {left right index : Nat} {direction : Direction}
    (mentioned : graph.mentionRelation labels name left right direction scope =
      .ok (index, after)) (given : String) : (after.slot? given).isSome = true ↔
        (graph.slot? given).isSome = true ∨ properName name = some given := by
  simp [Option.isSome_iff_exists, slot?_of_mentionRelation mentioned, exists_or]

end CypherSql.Graph
