import CypherSql.Proofs.Condition.Leaves

/-! # The expansion is exact

What a condition is expanded into has no disjunction left in it, and it tells how often a condition
holds: a row that fulfils a condition in three ways is a row of three branches of the `UNION ALL`.

* `isConjunctive` — whether a condition is a nest of conjunctions over leaves.
* `isConjunctive_of_mem_clauses` — every clause is one.
* `clauses_exact` — of the clauses of a condition as many hold as there are ways in which it does.
-/

namespace CypherSql.Condition

variable {α : Type}

/-! ## Conjunctive conditions -/

mutual

/-- Whether there is no disjunction in a condition, not even one of no or of one part. -/
def isConjunctive : Condition α → Bool
  | leaf _ => true
  | all children => areConjunctive children
  | any _ => false

def areConjunctive : List (Condition α) → Bool
  | [] => true
  | child :: rest => isConjunctive child && areConjunctive rest

end

@[simp] theorem areConjunctive_eq (children : List (Condition α)) :
    areConjunctive children = children.all isConjunctive := by
  induction children with
  | nil => rfl
  | cons child rest ih => rw [areConjunctive, ih, List.all_cons]

@[simp] theorem isConjunctive_leaf (value : α) : (leaf value).isConjunctive = true := rfl

@[simp] theorem isConjunctive_all {children : List (Condition α)} :
    (all children).isConjunctive = true ↔ ∀ child ∈ children, child.isConjunctive = true := by
  rw [isConjunctive, areConjunctive_eq, List.all_eq_true]

theorem isConjunctive_of_mem_cross {left right : List (Condition α)}
    (ofLeft : ∀ clause ∈ left, clause.isConjunctive = true)
    (ofRight : ∀ clause ∈ right, clause.isConjunctive = true) :
    ∀ clause ∈ cross left right, clause.isConjunctive = true := by
  intro clause isPair
  obtain ⟨first, isFirst, second, isSecond, rfl⟩ := mem_cross.mp isPair
  rw [isConjunctive_all, List.forall_mem_cons, List.forall_mem_singleton]
  exact ⟨ofLeft first isFirst, ofRight second isSecond⟩

mutual

/-- No clause has a disjunction in it. -/
theorem isConjunctive_of_mem_clauses : ∀ condition : Condition α, ∀ clause ∈ condition.clauses,
    clause.isConjunctive = true
  | leaf value => by
    intro clause isClause
    obtain rfl := List.mem_singleton.mp isClause
    rfl
  | any children => isConjunctive_of_mem_anyClauses children
  | all [] => by
    intro clause isClause
    rw [clauses] at isClause
    obtain rfl := List.mem_singleton.mp isClause
    rfl
  | all (first :: rest) =>
    isConjunctive_of_mem_allClauses _ (isConjunctive_of_mem_clauses first) rest

theorem isConjunctive_of_mem_anyClauses : ∀ children : List (Condition α),
    ∀ clause ∈ anyClauses children, clause.isConjunctive = true
  | [] => List.forall_mem_nil _
  | child :: rest => by
    intro clause isClause
    rcases List.mem_append.mp isClause with ofChild | ofRest
    · exact isConjunctive_of_mem_clauses child clause ofChild
    · exact isConjunctive_of_mem_anyClauses rest clause ofRest

theorem isConjunctive_of_mem_allClauses (found : List (Condition α))
    (each : ∀ clause ∈ found, clause.isConjunctive = true) :
    ∀ children : List (Condition α), ∀ clause ∈ allClauses found children,
      clause.isConjunctive = true
  | [] => each
  | child :: rest =>
    isConjunctive_of_mem_allClauses _
      (isConjunctive_of_mem_cross each (isConjunctive_of_mem_clauses child)) rest

end

/-! ## How many clauses there are -/

mutual

/-- A nest of conjunctions holds where all that it tests does. -/
theorem holds_of_isConjunctive {truth : α → Bool} (always : ∀ value, truth value = true) :
    ∀ condition : Condition α, condition.isConjunctive = true → condition.holds truth = true
  | leaf value, _ => always value
  | all children, conjunctive => by
    rw [holds_all, List.all_eq_true]
    exact forall_holds_of_isConjunctive always children (isConjunctive_all.mp conjunctive)

theorem forall_holds_of_isConjunctive {truth : α → Bool} (always : ∀ value, truth value = true) :
    ∀ children : List (Condition α), (∀ child ∈ children, child.isConjunctive = true) →
      ∀ child ∈ children, child.holds truth = true
  | [], _ => List.forall_mem_nil _
  | child :: rest, conjunctive => by
    obtain ⟨first, others⟩ := List.forall_mem_cons.mp conjunctive
    exact List.forall_mem_cons.mpr ⟨holds_of_isConjunctive always child first,
      forall_holds_of_isConjunctive always rest others⟩

end

theorem length_clauses (condition : Condition α) :
    condition.clauses.length = condition.ways fun _ => true := by
  rw [← countP_clauses, eq_comm, List.countP_eq_length]
  intro clause isClause
  exact holds_of_isConjunctive (fun _ => rfl) clause
    (isConjunctive_of_mem_clauses condition clause isClause)

theorem exists_mem_clauses_holds {truth : α → Bool} {condition : Condition α} :
    (∃ clause ∈ condition.clauses, clause.holds truth = true) ↔ condition.holds truth = true := by
  rw [← ways_pos, ← countP_clauses, List.countP_pos_iff]

/-- The clauses of a condition are the ways in which it can hold: none has a disjunction in it,
as many hold as there are ways, one holds where the condition does, and there are as many as there
are ways where every leaf holds. -/
theorem clauses_exact (condition : Condition α) :
    (∀ clause ∈ condition.clauses, clause.isConjunctive = true) ∧
      (∀ truth : α → Bool, condition.clauses.countP (holds truth) = condition.ways truth) ∧
      (∀ truth : α → Bool, (∃ clause ∈ condition.clauses, clause.holds truth = true) ↔
        condition.holds truth = true) ∧
      condition.clauses.length = condition.ways fun _ => true :=
  ⟨isConjunctive_of_mem_clauses condition, fun _ => countP_clauses condition,
    fun _ => exists_mem_clauses_holds, length_clauses condition⟩

end CypherSql.Condition
