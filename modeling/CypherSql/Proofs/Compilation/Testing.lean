import CypherSql.Proofs.Compilation.Tests
import CypherSql.Proofs.Cypher.Ingredients

/-! # Tests for patterns, one after the other

Compiling an expression changes the state by its tests for patterns only, and these are made in the
order in which the patterns are written.  So what a computation does is told by the list of the
tests that it makes, and of a computation that fails this is the list up to some point.

* `Tested` — tests that lead from one state to another, each with the number that it is made under.
* `Tested.numbers` — these numbers follow each other.
* `Performs` — a computation makes the tests of some ingredients.
-/

namespace CypherSql.Compilation

open CypherSql.Cypher
open CypherSql.Sql (GenerationError Malformation)

/-! ## Lists of tests -/

/-- The tests lead from the one state to the other.  Each is made under the number that the state
has then. -/
inductive Tested (settings : Settings) :
    CompilerState → List (Nat × Pattern) → CompilerState → Prop where
  | nil (state : CompilerState) : Tested settings state [] state
  | cons {state after : CompilerState} {tests : List (Nat × Pattern)} (pattern : Pattern)
      (tested : Tested settings ((existence settings pattern).run.run state).2 tests after) :
      Tested settings state ((state.nextPattern, pattern) :: tests) after

namespace Tested

variable {settings : Settings} {before after last : CompilerState}
  {tests others : List (Nat × Pattern)}

theorem one (state : CompilerState) (pattern : Pattern) :
    Tested settings state [(state.nextPattern, pattern)]
      ((existence settings pattern).run.run state).2 :=
  .cons pattern (.nil _)

theorem append (tested : Tested settings before tests after)
    (testedNext : Tested settings after others last) :
    Tested settings before (tests ++ others) last := by
  induction tested with
  | nil => exact testedNext
  | cons pattern _ ih => exact .cons pattern (ih testedNext)

theorem sameSlots (tested : Tested settings before tests after) : SameSlots before after := by
  induction tested with
  | nil state => exact SameSlots.refl state
  | cons pattern _ ih =>
    exact SameSlots.trans _ _ _ (existence_sameSlots settings pattern _).1 ih

end Tested

/-! ## Computations that test -/

/-- In every state with the slots of a graph, a computation makes the tests for the patterns among
some ingredients, in their order and up to where it fails.  If it gives a value, it makes all of
them, and the value has a property. -/
def Performs {α : Type} (settings : Settings) (outer : Graph) (parts : List Ingredient)
    (P : α → Prop) (computation : Compile α) : Prop :=
  ∀ state, state.graph.unscoped = outer.unscoped →
    ∃ tests, Tested settings state tests (computation.run.run state).2 ∧
      tests.map Prod.snd <+: parts.filterMap Ingredient.pattern? ∧
      ∀ value, (computation.run.run state).1 = .ok value →
        tests.map Prod.snd = parts.filterMap Ingredient.pattern? ∧ P value

section

variable {α β : Type} {settings : Settings} {outer : Graph} {parts more : List Ingredient}
  {P : β → Prop} {Q : α → Prop}

theorem performs_pure (untested : parts.filterMap Ingredient.pattern? = []) {value : β}
    (holds : P value) : Performs settings outer parts P (pure value : Compile β) := by
  intro state _
  refine ⟨[], .nil state, List.nil_prefix, fun result isResult => ⟨untested.symm, ?_⟩⟩
  obtain rfl := Except.ok.inj isResult
  exact holds

theorem performs_throw (error : GenerationError) :
    Performs settings outer parts P (throw error : Compile β) :=
  fun state _ => ⟨[], .nil state, List.nil_prefix, fun _ failed => nomatch failed⟩

theorem performs_refuse (shape : Malformation) :
    Performs settings outer parts P (refuse shape : Compile β) :=
  performs_throw _

theorem performs_get {next : CompilerState → Compile β}
    (performs : ∀ state, state.graph.unscoped = outer.unscoped →
      Performs settings outer parts P (next state)) :
    Performs settings outer parts P (get >>= next) :=
  fun state same => performs state same state same

theorem performs_bind {first : Compile α} {next : α → Compile β}
    (performs : Performs settings outer parts Q first)
    (performsNext : ∀ value, Q value → Performs settings outer more P (next value)) :
    Performs settings outer (parts ++ more) P (first >>= next) := by
  intro state same
  obtain ⟨tests, tested, inOrder, whole⟩ := performs state same
  rw [run_bind]
  generalize first.run.run state = outcome at tested whole ⊢
  obtain ⟨_ | value, after⟩ := outcome
  · refine ⟨tests, tested, ?_, fun _ failed => nomatch failed⟩
    rw [List.filterMap_append]
    exact inOrder.trans (List.prefix_append _ _)
  · obtain ⟨all, holds⟩ := whole value rfl
    obtain ⟨others, testedNext, inOrderNext, wholeNext⟩ :=
      performsNext value holds after (Eq.trans tested.sameSlots same)
    refine ⟨tests ++ others, tested.append testedNext, ?_, fun result isResult => ?_⟩
    · rw [List.map_append, List.filterMap_append, all]
      exact (List.prefix_append_right_inj _).mpr inOrderNext
    · obtain ⟨allNext, holdsNext⟩ := wholeNext result isResult
      rw [List.map_append, List.filterMap_append, all, allNext]
      exact ⟨rfl, holdsNext⟩

/-- What is done with a value at the end tests for nothing. -/
theorem performs_map {first : Compile α} {change : α → β}
    (performs : Performs settings outer parts Q first)
    (holds : ∀ value, Q value → P (change value)) :
    Performs settings outer parts P (first >>= fun value => pure (change value)) := by
  rw [← List.append_nil parts]
  exact performs_bind performs fun value isValue => performs_pure rfl (holds value isValue)

theorem performs_requireNoPath (atom : Atom) (path : List String) :
    Performs settings outer [] (fun _ => True) (requireNoPath atom path) := by
  unfold requireNoPath
  split
  · exact performs_pure rfl trivial
  · exact performs_refuse _

theorem performs_existence {P : Compiled → Prop} {pattern : Pattern}
    (holds : ∀ embedding, embeds outer pattern = some embedding →
      P { Compiled.scalar [.existing (embedding.subselect settings)] with
        reads := embedding.touched }) :
    Performs settings outer [.pattern pattern] P (existence settings pattern) := by
  intro state same
  refine ⟨_, .one state pattern, List.prefix_rfl, fun value isValue => ⟨rfl, ?_⟩⟩
  have result := existence_result settings pattern same
  rw [isValue] at result
  obtain ⟨embedding, isEmbedding, rfl⟩ := Option.map_eq_some_iff.mp result.symm
  exact holds embedding isEmbedding

end

end CypherSql.Compilation
