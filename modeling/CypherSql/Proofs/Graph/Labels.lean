import CypherSql.Proofs.Graph.Within

/-! # Labels of graphs

* `allLabels` — the labels of all slots of a kind.
* `labels_subset_allLabels` — those of one slot are among them.
* `Within.allLabels` — a larger graph has the labels of a smaller one.
* `mem_allLabels_of_mentionNode`, `mem_allLabels_of_mentionRelation` — a mention brings its labels,
  and no others.
-/

namespace CypherSql.Graph

def allLabels (graph : Graph) : SlotKind → List String
  | .node => graph.nodes.flatMap Node.labels
  | .relation => graph.relations.flatMap Relation.labels

theorem allLabels_unscoped (graph : Graph) (kind : SlotKind) :
    graph.unscoped.allLabels kind = graph.allLabels kind := by
  cases kind <;> exact List.flatMap_map _ _ _

theorem allLabels_eq_of_unscoped {earlier later : Graph}
    (same : later.unscoped = earlier.unscoped) (kind : SlotKind) :
    later.allLabels kind = earlier.allLabels kind := by
  rw [← allLabels_unscoped, same, allLabels_unscoped]

theorem labels_subset_allLabels (graph : Graph) (slot : Slot) :
    graph.labels slot ⊆ graph.allLabels slot.kind := by
  obtain ⟨kind, index⟩ := slot
  intro label isLabel
  cases kind with
  | node =>
    cases found : graph.nodes[index]? with
    | none => simp [labels, found] at isLabel
    | some node =>
      exact List.mem_flatMap.mpr
        ⟨node, List.mem_of_getElem? found, by simpa [labels, found] using isLabel⟩
  | relation =>
    cases found : graph.relations[index]? with
    | none => simp [labels, found] at isLabel
    | some relation =>
      exact List.mem_flatMap.mpr
        ⟨relation, List.mem_of_getElem? found, by simpa [labels, found] using isLabel⟩

theorem Within.allLabels {earlier later : Graph} (within : earlier.Within later) (kind : SlotKind) :
    earlier.allLabels kind ⊆ later.allLabels kind := by
  rw [← allLabels_unscoped earlier, ← allLabels_unscoped later]
  cases kind with
  | node =>
    obtain ⟨more, same⟩ := within.nodes
    simp only [Graph.allLabels, ← same, List.flatMap_append]
    exact List.subset_append_left _ _
  | relation =>
    obtain ⟨more, same⟩ := within.relations
    simp only [Graph.allLabels, ← same, List.flatMap_append]
    exact List.subset_append_left _ _

/-- Labels that are given once more are those of the slot. -/
theorem subset_of_sameLabels {labels others : List String}
    (agreeing : others = [] ∨ sameLabels labels others = true) : others ⊆ labels := by
  rcases agreeing with rfl | same
  · exact List.nil_subset _
  · intro label isOne
    have each := List.all_eq_true.mp (Bool.and_eq_true_iff.mp same).2 label isOne
    exact List.contains_iff_mem.mp each

section

variable {graph after : Graph} {labels : List String} {name : Option String} {scope : Scope}
  {kind : SlotKind} {label : String}

theorem allLabels_bind (graph : Graph) (name : Option String) (slot : Slot) :
    (graph.bind name slot).allLabels = graph.allLabels := by
  cases name <;> rfl

theorem mem_allLabels_addScope {slot : Slot}
    (agreeing : labels = [] ∨ sameLabels (graph.labels slot) labels = true) :
    label ∈ (graph.addScope slot scope).allLabels kind ↔
      label ∈ graph.allLabels kind ∨ kind = slot.kind ∧ label ∈ labels := by
  rw [allLabels_eq_of_unscoped (unscoped_addScope _ _ _)]
  constructor
  · exact .inl
  · rintro (early | ⟨rfl, isOne⟩)
    · exact early
    · exact labels_subset_allLabels graph slot (subset_of_sameLabels agreeing isOne)

theorem mem_allLabels_of_mentionNode {index : Nat}
    (mentioned : graph.mentionNode labels name scope = .ok (index, after)) :
    label ∈ after.allLabels kind ↔
      label ∈ graph.allLabels kind ∨ kind = .node ∧ label ∈ labels := by
  rcases mentionNode_ok mentioned with ⟨_, _, _, agreeing, rfl⟩ | ⟨_, rfl, rfl⟩
  · exact mem_allLabels_addScope agreeing
  · rw [allLabels_bind]
    cases kind <;> simp [allLabels]

theorem mem_allLabels_of_mentionRelation {left right index : Nat} {direction : Direction}
    (mentioned : graph.mentionRelation labels name left right direction scope =
      .ok (index, after)) : label ∈ after.allLabels kind ↔
        label ∈ graph.allLabels kind ∨ kind = .relation ∧ label ∈ labels := by
  obtain ⟨_, _, mentioned⟩ := mentionRelation_ok mentioned
  rcases mentioned with ⟨_, _, _, agreeing, rfl⟩ | ⟨_, rfl, rfl⟩
  · exact mem_allLabels_addScope agreeing
  · rw [allLabels_bind]
    cases kind <;> simp [allLabels]

end

end CypherSql.Graph
