import CypherSql.Proofs.Compilation.Origins
import CypherSql.Proofs.Compilation.Places

/-! # Aggregates in the filter of a query

The predicate of a `WITH` may not aggregate, whatever the names in it were given to.  Nothing of
the kind is asked of the predicate of a `MATCH`, so an aggregate gets into the filter exactly where
one is written there.

* `counts_conjunct` — what is put under an `AND` counts where the expression does.
* `Query.where_counts_iff` — when the filter of a `SELECT` counts.
-/

namespace CypherSql

open CypherSql.Cypher
open CypherSql.Sql (Branch Fragment Leaf Lexeme Statement)

namespace Compilation

open Lexicon (Counts)

theorem counts_conjunct {compiled : Compiled} (whole : Whole compiled) :
    Counts compiled.conjunct ↔ Counts compiled.operand := by
  cases isSlot : compiled.slot with
  | some slot =>
    rw [whole slot isSlot, operand_ofSlot]
    refine iff_of_false ?_ (Lexicon.not_counts_of_operand rfl)
    obtain ⟨kind, index⟩ := slot
    cases kind <;>
      simp [Counts, Compiled.conjunct, Compiled.ofSlot, Fragment.joined_cons, Sql.rowColumns]
  | none =>
    rw [operand_of_slot_none isSlot, Compiled.conjunct]
    split
    · simp [Counts, Fragment.parenthesized]
    · exact Iff.rfl

/-- The filter of a `SELECT` has a predicate in which an aggregate occurs. -/
def FiltersByCount (branch : Branch Statement) : Prop :=
  ∃ fragment, .predicate fragment ∈ branch.condition.leaves ∧ Counts fragment

/-- A predicate of the run that counts is that of a `MATCH`, where an aggregate is written. -/
theorem Run.fragment_counts {settings : Settings} {query : Query} {final : Draft}
    (run : Run (.start settings) query.events final) {fragment : Fragment}
    (isOne : fragment ∈ final.progress.predicates.fragments) (counts : Counts fragment) :
    ∃ clause ∈ query.matchClauses, ∃ predicate ∈ clause.predicate,
      ∃ ingredient ∈ predicate.ingredients, ingredient.aggregates = true := by
  obtain ⟨stage, isStage, before, after, predicate, compiled, next, passed, isPredicate, compiles,
    rfl⟩ := run.predicate_origin (fun stage _ => upholds_true stage) isOne
  have given := passed.sound.compiled
  rw [counts_conjunct (Progress.compile_whole given compiles),
    Progress.compile_counts_iff given compiles] at counts
  rcases isPredicate with isFilter | ⟨-, unaggregated⟩
  · have unnamed := passed.sound.find?_eq_none (given_of_filter isStage isFilter)
    have there := isFilter ▸ Query.event_mem_of_mem_stages isStage
    obtain ⟨clause, isClause, isPredicate⟩ := filter_mem_events.mp there
    exact ⟨clause, isClause, predicate, isPredicate,
      (Progress.compile_aggregates_iff unnamed given compiles).mp counts⟩
  · rw [unaggregated] at counts
    contradiction

/-- An aggregate in the predicate of a `MATCH` is in a predicate of the run. -/
theorem Run.exists_counts {settings : Settings} {query : Query} {final : Draft}
    (run : Run (.start settings) query.events final) {clause : MatchClause}
    (isClause : clause ∈ query.matchClauses) {predicate : Expression}
    (isPredicate : predicate ∈ clause.predicate) {ingredient : Ingredient}
    (isOne : ingredient ∈ predicate.ingredients) (aggregates : ingredient.aggregates = true) :
    ∃ fragment ∈ final.progress.predicates.fragments, Counts fragment := by
  obtain ⟨stage, isStage, isFilter⟩ :=
    Query.exists_mem_stages (filter_mem_events.mpr ⟨clause, isClause, isPredicate⟩)
  obtain ⟨before, after, passed⟩ := run.passed (fun stage _ => upholds_true stage) isStage
  obtain ⟨compiled, next, compiles, added⟩ := (isFilter ▸ passed.step).fragment_mem
  have given := passed.sound.compiled
  have unnamed := passed.sound.find?_eq_none (given_of_filter isStage isFilter)
  refine ⟨compiled.conjunct, passed.within.fragments added, ?_⟩
  rw [counts_conjunct (Progress.compile_whole given compiles),
    Progress.compile_counts_iff given compiles,
    Progress.compile_aggregates_iff unnamed given compiles]
  exact ⟨ingredient, isOne, aggregates⟩

end Compilation

open Compilation

/-- The filter of a `SELECT` aggregates exactly where the predicate of some `MATCH` does. -/
theorem Cypher.Query.where_counts_iff {settings : Settings} {query : Query}
    {compiled : CompiledQuery} (compiles : query.compile settings = .ok compiled)
    {branch : Branch Statement} (isOne : branch ∈ compiled.statement.branches) :
    FiltersByCount branch ↔ ∃ clause ∈ query.matchClauses, ∃ predicate ∈ clause.predicate,
      ∃ ingredient ∈ predicate.ingredients, ingredient.aggregates = true := by
  obtain ⟨progress, final, _, _, _, run, places⟩ := Query.compile_places compiles
  have predicates := (places branch isOne).predicates
  constructor
  · rintro ⟨fragment, isLeaf, counts⟩
    exact run.fragment_counts ((predicates fragment).mp isLeaf) counts
  · rintro ⟨clause, isClause, predicate, isPredicate, ingredient, isIngredient, aggregates⟩
    obtain ⟨fragment, isFragment, counts⟩ :=
      run.exists_counts isClause isPredicate isIngredient aggregates
    exact ⟨fragment, (predicates fragment).mpr isFragment, counts⟩

/-! ## An aggregate behind `MATCH` -/

namespace Compilation

def countedMatchText : String :=
  "MATCH (a) WHERE COUNT(a) > 1 RETURN a"

def countsLeaf : Leaf → Bool
  | .predicate fragment => fragment.any fun
    | .function name => name == "COUNT"
    | _ => false
  | _ => false

theorem filtersByCount_of_countsLeaf {branch : Branch Statement}
    (counts : branch.condition.leaves.any countsLeaf = true) : FiltersByCount branch := by
  obtain ⟨leaf, isLeaf, counts⟩ := List.any_eq_true.mp counts
  unfold countsLeaf at counts
  split at counts
  · next fragment =>
    obtain ⟨lexeme, isOne, isCount⟩ := List.any_eq_true.mp counts
    refine ⟨fragment, isLeaf, ?_⟩
    split at isCount
    · next name =>
      obtain rfl : name = "COUNT" := by simpa using isCount
      exact isOne
    · contradiction
  · contradiction

theorem countedMatchText_counts : ∃ query compiled branch,
    Query.parse countedMatchText = .ok query ∧ query.compile .standard = .ok compiled ∧
      branch ∈ compiled.statement.branches ∧ FiltersByCount branch := by
  have evaluated : ((Query.parse countedMatchText).toOption.any fun query =>
      (query.compile .standard).toOption.any fun compiled =>
        compiled.statement.branches.any fun branch =>
          branch.condition.leaves.any countsLeaf) = true := by
    decide +kernel
  rw [Option.any_eq_true] at evaluated
  obtain ⟨query, parsed, evaluated⟩ := evaluated
  rw [Option.any_eq_true] at evaluated
  obtain ⟨compiled, compiles, evaluated⟩ := evaluated
  obtain ⟨branch, isOne, counts⟩ := List.any_eq_true.mp evaluated
  exact ⟨query, compiled, branch, toOption_eq_some.mp parsed, toOption_eq_some.mp compiles, isOne,
    filtersByCount_of_countsLeaf counts⟩

end Compilation

theorem Cypher.Query.where_counts_iff_countedMatchText : ∃ query compiled branch,
    Query.parse countedMatchText = .ok query ∧ query.compile .standard = .ok compiled ∧
      branch ∈ compiled.statement.branches ∧
      (FiltersByCount branch ↔ ∃ clause ∈ query.matchClauses, ∃ predicate ∈ clause.predicate,
        ∃ ingredient ∈ predicate.ingredients, ingredient.aggregates = true) := by
  obtain ⟨query, compiled, branch, parsed, compiles, isOne, _⟩ := countedMatchText_counts
  exact ⟨query, compiled, branch, parsed, compiles, isOne, query.where_counts_iff compiles isOne⟩

/-- That query is accepted, and its filter aggregates. -/
theorem Cypher.Query.not_where_plain_countedMatchText : ∃ query compiled,
    Query.parse countedMatchText = .ok query ∧ query.compile .standard = .ok compiled ∧
      ¬ ∀ branch ∈ compiled.statement.branches, ¬ FiltersByCount branch := by
  obtain ⟨query, compiled, branch, parsed, compiles, isOne, counts⟩ := countedMatchText_counts
  exact ⟨query, compiled, parsed, compiles, fun plain => plain branch isOne counts⟩

end CypherSql
