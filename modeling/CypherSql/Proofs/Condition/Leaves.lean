import CypherSql.Proofs.Condition.Ways
import Mathlib.Data.List.Basic

/-! # What a condition tests

* `leaves` — what stands at the leaves of a condition, from left to right.
* `holds_congr` — whether a condition holds depends on them only.
* `leaves_flatten` — merging nodes leaves them as they are.
* `leaves_subset_of_mem_clauses` — a clause tests nothing that its condition does not test.
* `exists_mem_clauses_of_mem` — a clause of a conjunction has a clause of each child in it.
* `clauses_ne_nil` — a condition that can hold has a clause.
-/

namespace CypherSql.Condition

variable {α β : Type}

mutual

def leaves : Condition α → List α
  | leaf value => [value]
  | all children => childrenLeaves children
  | any children => childrenLeaves children

def childrenLeaves : List (Condition α) → List α
  | [] => []
  | child :: rest => leaves child ++ childrenLeaves rest

end

@[simp] theorem childrenLeaves_eq (children : List (Condition α)) :
    childrenLeaves children = children.flatMap leaves := by
  induction children with
  | nil => rfl
  | cons child rest ih => rw [childrenLeaves, ih, List.flatMap_cons]

@[simp] theorem leaves_leaf (value : α) : (leaf value).leaves = [value] := rfl

@[simp] theorem leaves_all (children : List (Condition α)) :
    (all children).leaves = children.flatMap leaves :=
  childrenLeaves_eq children

@[simp] theorem leaves_any (children : List (Condition α)) :
    (any children).leaves = children.flatMap leaves :=
  childrenLeaves_eq children

mutual

theorem leaves_map (f : α → β) : ∀ condition : Condition α,
    (condition.map f).leaves = condition.leaves.map f
  | leaf _ => rfl
  | all children => by rw [map, leaves_all, leaves_all, flatMap_leaves_mapChildren f children]
  | any children => by rw [map, leaves_any, leaves_any, flatMap_leaves_mapChildren f children]

theorem flatMap_leaves_mapChildren (f : α → β) : ∀ children : List (Condition α),
    (mapChildren f children).flatMap leaves = (children.flatMap leaves).map f
  | [] => rfl
  | child :: rest => by
    rw [mapChildren, List.flatMap_cons, List.flatMap_cons, leaves_map f child,
      flatMap_leaves_mapChildren f rest, List.map_append]

end

/-! ## Meaning -/

section

variable {truth truth' : α → Bool}

mutual

/-- Whether a condition holds depends on what it tests only. -/
theorem holds_congr : ∀ condition : Condition α,
    (∀ value ∈ condition.leaves, truth value = truth' value) →
      condition.holds truth = condition.holds truth'
  | leaf value, same => same value List.mem_cons_self
  | all children, same => by
    rw [holds, holds, (holdsChildren_congr children (leaves_all children ▸ same)).1]
  | any children, same => by
    rw [holds, holds, (holdsChildren_congr children (leaves_any children ▸ same)).2]

theorem holdsChildren_congr : ∀ children : List (Condition α),
    (∀ value ∈ children.flatMap leaves, truth value = truth' value) →
      holdsAll truth children = holdsAll truth' children ∧
        holdsAny truth children = holdsAny truth' children
  | [], _ => ⟨rfl, rfl⟩
  | child :: rest, same => by
    rw [List.flatMap_cons, List.forall_mem_append] at same
    have first := holds_congr child same.1
    have others := holdsChildren_congr rest same.2
    exact ⟨by rw [holdsAll, holdsAll, first, others.1], by rw [holdsAny, holdsAny, first, others.2]⟩

end

end

/-! ## Flattening -/

theorem flatMap_leaves_conjuncts (condition : Condition α) :
    condition.conjuncts.flatMap leaves = condition.leaves := by
  cases condition <;> simp [conjuncts]

theorem flatMap_leaves_disjuncts (condition : Condition α) :
    condition.disjuncts.flatMap leaves = condition.leaves := by
  cases condition <;> simp [disjuncts]

theorem leaves_nodeOver {node : List (Condition α) → Condition α}
    (ofNode : ∀ children, (node children).leaves = children.flatMap leaves)
    (children : List (Condition α)) :
    (nodeOver node children).leaves = children.flatMap leaves := by
  unfold nodeOver
  split
  · simp
  · exact ofNode _

mutual

theorem leaves_flatten : ∀ condition : Condition α, condition.flatten.leaves = condition.leaves
  | leaf _ => rfl
  | all children => by
    rw [flatten, leaves_nodeOver leaves_all, flatMap_leaves_mergedAll children, leaves_all]
  | any children => by
    rw [flatten, leaves_nodeOver leaves_any, flatMap_leaves_mergedAny children, leaves_any]

theorem flatMap_leaves_mergedAll : ∀ children : List (Condition α),
    (mergedAll children).flatMap leaves = children.flatMap leaves
  | [] => rfl
  | child :: rest => by
    rw [mergedAll, List.flatMap_append, flatMap_leaves_conjuncts, leaves_flatten child,
      flatMap_leaves_mergedAll rest, List.flatMap_cons]

theorem flatMap_leaves_mergedAny : ∀ children : List (Condition α),
    (mergedAny children).flatMap leaves = children.flatMap leaves
  | [] => rfl
  | child :: rest => by
    rw [mergedAny, List.flatMap_append, flatMap_leaves_disjuncts, leaves_flatten child,
      flatMap_leaves_mergedAny rest, List.flatMap_cons]

end

/-! ## Expansion -/

theorem mem_cross {clause : Condition α} {left right : List (Condition α)} :
    clause ∈ cross left right ↔ ∃ l ∈ left, ∃ r ∈ right, clause = all [l, r] := by
  simp [cross, eq_comm]

/-- A clause that is found for the first children and one for each of the others make up a clause
of all. -/
theorem exists_mem_of_mem_allClauses {found children : List (Condition α)} {clause : Condition α}
    (isOne : clause ∈ allClauses found children) :
    (∃ first ∈ found, first.leaves ⊆ clause.leaves) ∧
      ∀ child ∈ children, ∃ part ∈ child.clauses, part.leaves ⊆ clause.leaves := by
  induction children generalizing found with
  | nil => exact ⟨⟨clause, isOne, List.Subset.refl _⟩, List.forall_mem_nil _⟩
  | cons child rest ih =>
    obtain ⟨⟨pair, isPair, inClause⟩, others⟩ := ih isOne
    obtain ⟨first, isFirst, part, isPart, rfl⟩ := mem_cross.mp isPair
    simp only [leaves_all, List.flatMap_cons, List.flatMap_nil, List.append_nil,
      List.append_subset] at inClause
    exact ⟨⟨first, isFirst, inClause.1⟩,
      List.forall_mem_cons.mpr ⟨⟨part, isPart, inClause.2⟩, others⟩⟩

theorem exists_mem_clauses_of_mem {children : List (Condition α)} {clause child : Condition α}
    (isClause : clause ∈ (all children).clauses) (isChild : child ∈ children) :
    ∃ part ∈ child.clauses, part.leaves ⊆ clause.leaves := by
  cases children with
  | nil => contradiction
  | cons first rest =>
    obtain ⟨ofFirst, ofRest⟩ := exists_mem_of_mem_allClauses isClause
    rcases List.mem_cons.mp isChild with rfl | later
    · exact ofFirst
    · exact ofRest child later

/-- What a conjunction tests next to its other children, each of its clauses tests. -/
theorem mem_leaves_of_mem_clauses {children : List (Condition α)} {clause : Condition α}
    (isClause : clause ∈ (all children).clauses) {value : α} (isChild : .leaf value ∈ children) :
    value ∈ clause.leaves := by
  obtain ⟨part, isPart, inClause⟩ := exists_mem_clauses_of_mem isClause isChild
  obtain rfl : part = all [leaf value] := by simpa [clauses] using isPart
  exact inClause (by simp)

mutual

theorem leaves_subset_of_mem_clauses : ∀ condition : Condition α, ∀ clause ∈ condition.clauses,
    clause.leaves ⊆ condition.leaves
  | leaf value => by simp [clauses]
  | any children => by
    rw [clauses, leaves_any]
    exact leaves_subset_of_mem_anyClauses children
  | all [] => by simp [clauses]
  | all (first :: rest) => by
    intro clause isClause
    obtain ⟨part, isPart, inBoth⟩ := leaves_subset_of_mem_allClauses _ rest clause isClause
    rw [leaves_all, List.flatMap_cons]
    refine List.Subset.trans inBoth (List.append_subset.mpr ⟨?_, List.subset_append_right _ _⟩)
    exact List.Subset.trans (leaves_subset_of_mem_clauses first part isPart)
      (List.subset_append_left _ _)

theorem leaves_subset_of_mem_anyClauses : ∀ children : List (Condition α),
    ∀ clause ∈ anyClauses children, clause.leaves ⊆ children.flatMap leaves
  | [] => by simp [anyClauses]
  | child :: rest => by
    intro clause isClause
    rw [List.flatMap_cons]
    rcases List.mem_append.mp isClause with ofChild | ofRest
    · exact List.Subset.trans (leaves_subset_of_mem_clauses child clause ofChild)
        (List.subset_append_left _ _)
    · exact List.Subset.trans (leaves_subset_of_mem_anyClauses rest clause ofRest)
        (List.subset_append_right _ _)

theorem leaves_subset_of_mem_allClauses (found : List (Condition α)) :
    ∀ children : List (Condition α), ∀ clause ∈ allClauses found children,
      ∃ first ∈ found, clause.leaves ⊆ first.leaves ++ children.flatMap leaves
  | [] => fun clause isClause => ⟨clause, isClause, List.subset_append_left _ _⟩
  | child :: rest => by
    intro clause isClause
    obtain ⟨pair, isPair, inBoth⟩ := leaves_subset_of_mem_allClauses _ rest clause isClause
    obtain ⟨first, isFirst, part, isPart, rfl⟩ := mem_cross.mp isPair
    refine ⟨first, isFirst, List.Subset.trans inBoth ?_⟩
    have ofPart := leaves_subset_of_mem_clauses child part isPart
    simp only [leaves_all, List.flatMap_cons, List.flatMap_nil, List.append_nil,
      List.append_assoc]
    intro value isValue
    rcases List.mem_append.mp isValue with inFirst | isValue
    · exact List.mem_append_left _ inFirst
    · rcases List.mem_append.mp isValue with inPart | inRest
      · exact List.mem_append_right _ (List.mem_append_left _ (ofPart inPart))
      · exact List.mem_append_right _ (List.mem_append_right _ inRest)

end

/-- Where a condition can hold, some clause does. -/
theorem clauses_ne_nil {truth : α → Bool} {condition : Condition α}
    (holds : condition.holds truth = true) : condition.clauses ≠ [] := by
  intro none
  have count : condition.clauses.countP (Condition.holds truth) = condition.ways truth :=
    countP_clauses condition
  rw [none, List.countP_nil] at count
  have positive : 0 < condition.ways truth := (ways_pos condition).mpr holds
  omega

end CypherSql.Condition
