import CypherSql.Condition
import Mathlib

/-! # In how many ways a condition holds

Every leaf holds or does not.  A condition then holds or does not, and it may hold in
more than one way: a disjunction in a way for each of its parts that holds, a
conjunction in a way for each choice of one way for every part.

* `Condition.holds` — whether a condition holds.
* `Condition.ways` — in how many ways.
* `Condition.countP_clauses` — the expansion has exactly one clause that holds for
  every way.
* `Condition.holds_flatten` — flattening keeps what a condition says.
-/

namespace CypherSql.Condition

variable {α β : Type}

/-! ## Meaning -/

mutual

def holds (truth : α → Bool) : Condition α → Bool
  | leaf value => truth value
  | all children => holdsAll truth children
  | any children => holdsAny truth children

def holdsAll (truth : α → Bool) : List (Condition α) → Bool
  | [] => true
  | child :: rest => holds truth child && holdsAll truth rest

def holdsAny (truth : α → Bool) : List (Condition α) → Bool
  | [] => false
  | child :: rest => holds truth child || holdsAny truth rest

end

mutual

/-- In how many ways a condition holds. -/
def ways (truth : α → Bool) : Condition α → Nat
  | leaf value => if truth value then 1 else 0
  | all children => waysAll truth children
  | any children => waysAny truth children

def waysAll (truth : α → Bool) : List (Condition α) → Nat
  | [] => 1
  | child :: rest => ways truth child * waysAll truth rest

def waysAny (truth : α → Bool) : List (Condition α) → Nat
  | [] => 0
  | child :: rest => ways truth child + waysAny truth rest

end

variable {truth : α → Bool}

@[simp] theorem holdsAll_eq (children : List (Condition α)) :
    holdsAll truth children = children.all (holds truth) := by
  induction children with
  | nil => rfl
  | cons child rest ih => simp [holdsAll, ih]

@[simp] theorem holdsAny_eq (children : List (Condition α)) :
    holdsAny truth children = children.any (holds truth) := by
  induction children with
  | nil => rfl
  | cons child rest ih => simp [holdsAny, ih]

@[simp] theorem waysAll_eq (children : List (Condition α)) :
    waysAll truth children = (children.map (ways truth)).prod := by
  induction children with
  | nil => rfl
  | cons child rest ih => simp [waysAll, ih]

@[simp] theorem waysAny_eq (children : List (Condition α)) :
    waysAny truth children = (children.map (ways truth)).sum := by
  induction children with
  | nil => rfl
  | cons child rest ih => simp [waysAny, ih]

@[simp] theorem holds_leaf (value : α) : holds truth (leaf value) = truth value := rfl

@[simp] theorem holds_all (children : List (Condition α)) :
    holds truth (all children) = children.all (holds truth) := by
  simp [holds]

@[simp] theorem holds_any (children : List (Condition α)) :
    holds truth (any children) = children.any (holds truth) := by
  simp [holds]

@[simp] theorem ways_leaf (value : α) :
    ways truth (leaf value) = if truth value then 1 else 0 := rfl

@[simp] theorem ways_all (children : List (Condition α)) :
    ways truth (all children) = (children.map (ways truth)).prod := by
  simp [ways]

@[simp] theorem ways_any (children : List (Condition α)) :
    ways truth (any children) = (children.map (ways truth)).sum := by
  simp [ways]

/-- A disjunction of leaves holds once for each leaf that does. -/
theorem ways_any_leaves (value : β → α) (xs : List β) :
    ways truth (any (xs.map fun x => leaf (value x))) = xs.countP fun x => truth (value x) := by
  rw [ways_any, List.map_map]
  induction xs with
  | nil => rfl
  | cons x rest ih =>
    rw [List.map_cons, List.sum_cons, ih, List.countP_cons, Nat.add_comm]
    rfl

mutual

theorem ways_pos : ∀ condition : Condition α,
    0 < ways truth condition ↔ holds truth condition = true
  | leaf value => by cases h : truth value <;> simp [h]
  | all children => by
    rw [ways_all, holds_all, List.all_eq_true]
    exact prod_ways_pos children
  | any children => by
    rw [ways_any, holds_any, List.any_eq_true]
    exact sum_ways_pos children

theorem prod_ways_pos : ∀ children : List (Condition α),
    0 < (children.map (ways truth)).prod ↔ ∀ child ∈ children, holds truth child = true
  | [] => by simp
  | child :: rest => by
    rw [List.map_cons, List.prod_cons, Nat.pos_iff_ne_zero, Nat.mul_ne_zero_iff,
      ← Nat.pos_iff_ne_zero, ← Nat.pos_iff_ne_zero, List.forall_mem_cons, ways_pos child,
      prod_ways_pos rest]

theorem sum_ways_pos : ∀ children : List (Condition α),
    0 < (children.map (ways truth)).sum ↔ ∃ child ∈ children, holds truth child = true
  | [] => by simp
  | child :: rest => by
    rw [List.map_cons, List.sum_cons, Nat.add_pos_iff_pos_or_pos, ways_pos child,
      sum_ways_pos rest]
    simp only [List.mem_cons, exists_eq_or_imp]

end

/-! ## Renaming leaves -/

mutual

theorem holds_map (f : β → α) : ∀ condition : Condition β,
    holds truth (map f condition) = holds (truth ∘ f) condition
  | leaf _ => rfl
  | all children => by rw [map, holds_all, holds_all, all_holds_mapChildren f children]
  | any children => by rw [map, holds_any, holds_any, any_holds_mapChildren f children]

theorem all_holds_mapChildren (f : β → α) : ∀ children : List (Condition β),
    (mapChildren f children).all (holds truth) = children.all (holds (truth ∘ f))
  | [] => rfl
  | child :: rest => by
    rw [mapChildren, List.all_cons, List.all_cons, holds_map f child, all_holds_mapChildren f rest]

theorem any_holds_mapChildren (f : β → α) : ∀ children : List (Condition β),
    (mapChildren f children).any (holds truth) = children.any (holds (truth ∘ f))
  | [] => rfl
  | child :: rest => by
    rw [mapChildren, List.any_cons, List.any_cons, holds_map f child, any_holds_mapChildren f rest]

end

mutual

theorem ways_map (f : β → α) : ∀ condition : Condition β,
    ways truth (map f condition) = ways (truth ∘ f) condition
  | leaf _ => rfl
  | all children => by rw [map, ways_all, ways_all, map_ways_mapChildren f children]
  | any children => by rw [map, ways_any, ways_any, map_ways_mapChildren f children]

theorem map_ways_mapChildren (f : β → α) : ∀ children : List (Condition β),
    (mapChildren f children).map (ways truth) = children.map (ways (truth ∘ f))
  | [] => rfl
  | child :: rest => by
    rw [mapChildren, List.map_cons, List.map_cons, ways_map f child, map_ways_mapChildren f rest]

end

/-! ## Flattening -/

theorem all_holds_conjuncts (condition : Condition α) :
    condition.conjuncts.all (holds truth) = holds truth condition := by
  cases condition <;> simp [conjuncts]

theorem any_holds_disjuncts (condition : Condition α) :
    condition.disjuncts.any (holds truth) = holds truth condition := by
  cases condition <;> simp [disjuncts]

theorem holds_nodeOver_all (children : List (Condition α)) :
    holds truth (nodeOver all children) = children.all (holds truth) := by
  unfold nodeOver
  split <;> simp

theorem holds_nodeOver_any (children : List (Condition α)) :
    holds truth (nodeOver any children) = children.any (holds truth) := by
  unfold nodeOver
  split <;> simp

mutual

theorem holds_flatten : ∀ condition : Condition α,
    holds truth (flatten condition) = holds truth condition
  | leaf _ => rfl
  | all children => by
    rw [flatten, holds_nodeOver_all, all_holds_mergedAll children, holds_all]
  | any children => by
    rw [flatten, holds_nodeOver_any, any_holds_mergedAny children, holds_any]

theorem all_holds_mergedAll : ∀ children : List (Condition α),
    (mergedAll children).all (holds truth) = children.all (holds truth)
  | [] => rfl
  | child :: rest => by
    rw [mergedAll, List.all_append, all_holds_conjuncts, holds_flatten child,
      all_holds_mergedAll rest, List.all_cons]

theorem any_holds_mergedAny : ∀ children : List (Condition α),
    (mergedAny children).any (holds truth) = children.any (holds truth)
  | [] => rfl
  | child :: rest => by
    rw [mergedAny, List.any_append, any_holds_disjuncts, holds_flatten child,
      any_holds_mergedAny rest, List.any_cons]

end

/-! ## Expansion -/

theorem countP_cross (left right : List (Condition α)) :
    (cross left right).countP (holds truth) =
      left.countP (holds truth) * right.countP (holds truth) := by
  induction left with
  | nil => simp [cross]
  | cons first rest ih =>
    have behind : (right.map fun r => all [first, r]).countP (holds truth) =
        if holds truth first then right.countP (holds truth) else 0 := by
      rw [List.countP_map]
      cases h : holds truth first <;> simp [Function.comp_def, h]
    rw [cross, List.flatMap_cons, List.countP_append, behind, ← cross, ih, List.countP_cons]
    cases holds truth first <;> simp [Nat.add_mul, Nat.add_comm]

mutual

/-- The expansion has exactly one clause that holds for every way in which the
condition does. -/
theorem countP_clauses : ∀ condition : Condition α,
    (clauses condition).countP (holds truth) = ways truth condition
  | leaf value => by cases h : truth value <;> simp [clauses, h]
  | any children => by rw [clauses, countP_anyClauses children, ways_any]
  | all [] => by simp [clauses]
  | all (first :: rest) => by
    rw [clauses, countP_allClauses _ rest, countP_clauses first, ways_all, List.map_cons,
      List.prod_cons]

theorem countP_anyClauses : ∀ children : List (Condition α),
    (anyClauses children).countP (holds truth) = (children.map (ways truth)).sum
  | [] => rfl
  | child :: rest => by
    rw [anyClauses, List.countP_append, countP_clauses child, countP_anyClauses rest,
      List.map_cons, List.sum_cons]

theorem countP_allClauses (found : List (Condition α)) : ∀ children : List (Condition α),
    (allClauses found children).countP (holds truth) =
      found.countP (holds truth) * (children.map (ways truth)).prod
  | [] => by simp [allClauses]
  | child :: rest => by
    -- The clauses found so far are the first factor, which grows by each child.
    rw [allClauses, countP_allClauses _ rest, countP_cross, countP_clauses child, List.map_cons,
      List.prod_cons, Nat.mul_assoc]

end

end CypherSql.Condition
