import CypherSql.Proofs.Condition.Leaves
import CypherSql.Proofs.Condition.Traces

/-! # What clauses become

A clause is a nest of conjunctions over leaves.  Flattening makes one list of the leaves, which is
written with `AND` between them.

* `conjunction` — the conjunction of leaves, without a node where there is one leaf.
* `flatten_of_mem_clauses` — a clause becomes the conjunction of its leaves.
* `tokens_conjunction` — how that is written.
-/

namespace CypherSql.Condition

variable {α : Type}

def conjunction (values : List α) : Condition α :=
  nodeOver .all (values.map .leaf)

theorem holds_conjunction (truth : α → Bool) (values : List α) :
    (conjunction values).holds truth = values.all truth := by
  rw [conjunction, holds_nodeOver_all, List.all_map]
  rfl

/-! ## Flattening -/

theorem conjuncts_conjunction (values : List α) :
    (conjunction values).conjuncts = values.map .leaf := by
  match values with
  | [] | [_] | _ :: _ :: _ => rfl

theorem mergedAll_of_conjunctions {children : List (Condition α)}
    (each : ∀ child ∈ children, child.flatten = conjunction child.leaves) :
    mergedAll children = (children.flatMap leaves).map .leaf := by
  induction children with
  | nil => rfl
  | cons child rest ih =>
    obtain ⟨first, others⟩ := List.forall_mem_cons.mp each
    rw [mergedAll, first, conjuncts_conjunction, ih others, List.flatMap_cons, List.map_append]

theorem flatten_all_of_conjunctions {children : List (Condition α)}
    (each : ∀ child ∈ children, child.flatten = conjunction child.leaves) :
    (all children).flatten = conjunction (all children).leaves := by
  rw [flatten, mergedAll_of_conjunctions each, leaves_all, conjunction]

mutual

theorem flatten_of_mem_clauses : ∀ condition : Condition α, ∀ clause ∈ condition.clauses,
    clause.flatten = conjunction clause.leaves
  | leaf value => by
    intro clause isClause
    obtain rfl := List.mem_singleton.mp isClause
    rfl
  | any children => flatten_of_mem_anyClauses children
  | all [] => by
    intro clause isClause
    rw [clauses] at isClause
    obtain rfl := List.mem_singleton.mp isClause
    rfl
  | all (first :: rest) =>
    flatten_of_mem_allClauses _ (flatten_of_mem_clauses first) rest

theorem flatten_of_mem_anyClauses : ∀ children : List (Condition α),
    ∀ clause ∈ anyClauses children, clause.flatten = conjunction clause.leaves
  | [] => List.forall_mem_nil _
  | child :: rest => by
    intro clause isClause
    rcases List.mem_append.mp isClause with ofChild | ofRest
    · exact flatten_of_mem_clauses child clause ofChild
    · exact flatten_of_mem_anyClauses rest clause ofRest

theorem flatten_of_mem_allClauses (found : List (Condition α))
    (each : ∀ clause ∈ found, clause.flatten = conjunction clause.leaves) :
    ∀ children : List (Condition α), ∀ clause ∈ allClauses found children,
      clause.flatten = conjunction clause.leaves
  | [] => each
  | child :: rest => by
    refine flatten_of_mem_allClauses _ (fun pair isPair => ?_) rest
    obtain ⟨first, isFirst, second, isSecond, rfl⟩ := mem_cross.mp isPair
    apply flatten_all_of_conjunctions
    exact List.forall_mem_cons.mpr ⟨each first isFirst,
      List.forall_mem_singleton.mpr (flatten_of_mem_clauses child second isSecond)⟩

end

/-! ## Written form -/

theorem tokens_conjunction {blank : α → Bool} {values : List α}
    (traced : ∀ value ∈ values, blank value = false) :
    (conjunction values).tokens blank = [Token.and].intercalate (values.map ([Token.leaf ·])) := by
  match values with
  | [] => rfl
  | [value] => simp [conjunction, nodeOver, tokens, written, List.intercalate]
  | first :: second :: rest =>
    have whole : conjunction (first :: second :: rest) =
      .all ((first :: second :: rest).map leaf) := rfl
    have parts : writtenChildren blank ((first :: second :: rest).map leaf) =
        ((first :: second :: rest).map leaf).map (written blank) :=
      (writtenChildren_eq _ (by simpa using traced)).1
    rw [whole, tokens, written, parts, List.map_map, List.map_cons, List.map_cons,
      joined_cons_cons]
    simp [written, Function.comp_def]

end CypherSql.Condition
