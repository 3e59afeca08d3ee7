import CypherSql.Proofs.Compilation.Hops

/-! # What the filter of a query says

The filter keeps the rows of which the slot of every node and of every relation has one of
its labels, every relation joins its ends, and every predicate holds.

* `typed` — the row of a slot has one of its labels.
* `matchedEnds` — the ends of a relation, in the direction in which it is matched.
* `holds_filterOf` — the three parts of the filter.
-/

namespace CypherSql.Compilation

open CypherSql.Sql (Alias Fragment Leaf Record Test equal)

variable {V : Type} [DecidableEq V] (constant : String → V) (rows : Alias → Record V)

def typed (row : Alias) (labels : List String) : Bool :=
  labels.isEmpty || labels.any fun label => equal (rows row "type") (some (constant label))

/-- The ends of a relation, in the direction in which the filter matches it. -/
def matchedEnds (settings : Settings) (graph : Graph) (predicates : Predicates)
    (relation : Graph.Relation) : Ends :=
  { endsOf relation with direction := effectiveDirection settings graph predicates relation }

theorem mem_labelCondition {row : Alias} {labels : List String} {condition : Condition Test} :
    condition ∈ (labelCondition row labels).toList ↔
      labels ≠ [] ∧ condition = .any (labels.map fun label => .leaf (.hasType row label)) := by
  cases labels with
  | nil => simp [labelCondition]
  | cons label rest => simp [labelCondition]

theorem all_holds_labelCondition (row : Alias) (labels : List String) :
    (labelCondition row labels).toList.all (Condition.holds (Test.holds constant rows)) =
      typed constant rows row labels := by
  cases labels with
  | nil => rfl
  | cons label labels => simp [labelCondition, typed, Test.holds, Function.comp_def]

theorem all_holds_labelConditions (graph : Graph) :
    (labelConditions graph).all (Condition.holds (Test.holds constant rows)) =
      (graph.nodes.all (fun node => typed constant rows (nodeRow node.id) node.labels) &&
        graph.relations.all fun relation =>
          typed constant rows (relationRow relation.id) relation.labels) := by
  simp only [labelConditions, List.all_append, List.all_flatMap, all_holds_labelCondition]

theorem all_holds_endConditions (settings : Settings) (graph : Graph) (predicates : Predicates) :
    (endConditions settings graph predicates).all (Condition.holds (Test.holds constant rows)) =
      graph.relations.all fun relation =>
        (matchedEnds settings graph predicates relation).joined rows := by
  rw [endConditions, List.all_map]
  congr 1
  funext relation
  exact holds_endCondition constant rows (matchedEnds settings graph predicates relation)

theorem holds_filterOf (predicate : Fragment → Bool) (settings : Settings) (graph : Graph)
    (predicates : Predicates) :
    (filterOf settings graph predicates).holds (Leaf.holds (Test.holds constant rows) predicate) =
      (graph.nodes.all (fun node => typed constant rows (nodeRow node.id) node.labels) &&
        graph.relations.all (fun relation =>
          typed constant rows (relationRow relation.id) relation.labels) &&
        graph.relations.all (fun relation =>
          (matchedEnds settings graph predicates relation).joined rows) &&
        predicates.fragments.all predicate) := by
  have shape : Leaf.holds (Test.holds constant rows) predicate ∘ Leaf.shape =
      Test.holds constant rows := rfl
  rw [← all_holds_labelConditions, ← all_holds_endConditions, filterOf, Condition.holds_all,
    List.all_append, List.all_map, List.all_map, ← List.all_append]
  congr 2
  funext condition
  rw [Function.comp_apply, Condition.holds_map, shape]

/-- Without the optimization every relation is matched in its own direction. -/
theorem matchedEnds_eq {settings : Settings} (off : settings.optimizeEitherDirection = false)
    (graph : Graph) (predicates : Predicates) :
    matchedEnds settings graph predicates = endsOf := by
  funext relation
  simp [matchedEnds, effectiveDirection, off, endsOf]

end CypherSql.Compilation
