import CypherSql.Proofs.Compilation.Expressions
import CypherSql.Proofs.Graph.Unscoped

/-! # Tests for patterns take nothing from scopes

A test for a pattern records under a fresh number which outer slots it mentions, and no later test
looks at these records.  So two runs of a test agree when they start in graphs that differ in the
record of who mentions a slot only.

* `Agrees` — two computations with the same value, in states with the same slots.
* `Embedding.ofPattern` — the graph that a test looks for, without the number of the test.
* `embeds`, `existence_result` — what a test comes to in every state with the slots of a graph.
-/

namespace CypherSql.Compilation

open CypherSql.Cypher (Hop NodePattern Pattern RelationshipPattern)
open CypherSql.Graph (BindingError Direction Scope Slot SlotKind)
open CypherSql.Sql (Fragment GenerationError)

/-! ## Two runs -/

/-- In states with the same slots both computations give the same value or the same error, and the
slots stay the same. -/
def Agrees {α : Type} (first second : Compile α) : Prop :=
  ∀ state state', SameSlots state state' →
    (first.run.run state).1 = (second.run.run state').1 ∧
      SameSlots (first.run.run state).2 (second.run.run state').2

theorem agrees_bind {α β : Type} {first second : Compile α} {next next' : α → Compile β}
    (agrees : Agrees first second) (agreesNext : ∀ value, Agrees (next value) (next' value)) :
    Agrees (first >>= next) (second >>= next') := by
  intro state state' same
  obtain ⟨sameValue, sameState⟩ := agrees state state' same
  rw [run_bind, run_bind]
  generalize first.run.run state = outcome at sameValue sameState ⊢
  generalize second.run.run state' = outcome' at sameValue sameState ⊢
  obtain ⟨value, after⟩ := outcome
  obtain ⟨value', after'⟩ := outcome'
  obtain rfl : value = value' := sameValue
  cases value with
  | error error => exact ⟨rfl, sameState⟩
  | ok value => exact agreesNext value after after' sameState

theorem agrees_pure {α : Type} (value : α) : Agrees (pure value : Compile α) (pure value) :=
  fun _ _ same => ⟨rfl, same⟩

theorem agrees_liftBinding {α : Type} (result : Except BindingError α) :
    Agrees (liftBinding result) (liftBinding result) := by
  cases result with
  | error error => exact fun _ _ same => ⟨rfl, same⟩
  | ok value => exact agrees_pure value

/-! ## Mentions -/

theorem mentionOuter_agrees (name : Option String) (kind : SlotKind) (labels : List String)
    (scope scope' : Scope) :
    Agrees (mentionOuter name kind labels scope) (mentionOuter name kind labels scope') := by
  intro state state' same
  have alike := Graph.mentionAgain?_congr same name kind labels scope scope'
  rw [run_mentionOuter, run_mentionOuter]
  generalize state.graph.mentionAgain? name kind labels scope = result,
    state'.graph.mentionAgain? name kind labels scope' = result' at alike ⊢
  cases alike with
  | error sameError =>
    obtain rfl := sameError
    exact ⟨rfl, same⟩
  | ok related => exact ⟨congrArg Except.ok related.1.symm, related.2⟩

namespace Embedding

theorem tieOuter_agrees (embedding : Embedding) (name : Option String) (kind : SlotKind)
    (labels : List String) (scope scope' : Scope) (index : Nat) :
    Agrees (embedding.tieOuter name kind labels scope index)
      (embedding.tieOuter name kind labels scope' index) := by
  apply agrees_bind (mentionOuter_agrees name kind labels scope scope')
  rintro (_ | outer)
  · exact agrees_pure _
  · exact agrees_pure _

theorem addNode_agrees (embedding : Embedding) (scope scope' : Scope) (node : NodePattern) :
    Agrees (embedding.addNode scope node) (embedding.addNode scope' node) := by
  apply agrees_bind (agrees_liftBinding _)
  intro mentioned
  apply agrees_bind (tieOuter_agrees _ _ _ _ _ _ _)
  intro tied
  exact agrees_pure _

theorem addRelation_agrees (embedding : Embedding) (scope scope' : Scope)
    (relationship : RelationshipPattern) (left right : Nat) :
    Agrees (embedding.addRelation scope relationship left right)
      (embedding.addRelation scope' relationship left right) := by
  apply agrees_bind (agrees_liftBinding _)
  intro mentioned
  exact tieOuter_agrees _ _ _ _ _ _ _

theorem addHops_agrees (embedding : Embedding) (scope scope' : Scope) (previous : Nat)
    (hops : List Hop) :
    Agrees (embedding.addHops scope previous hops) (embedding.addHops scope' previous hops) := by
  induction hops generalizing embedding previous with
  | nil => exact agrees_pure embedding
  | cons hop rest ih =>
    apply agrees_bind (addNode_agrees _ _ _ _)
    intro added
    apply agrees_bind (addRelation_agrees _ _ _ _ _ _)
    intro joined
    exact ih joined added.1

/-- The pattern that a test looks for, mentioned under a given number. -/
def ofPattern (scope : Scope) (pattern : Pattern) : Compile Embedding := do
  let (start, embedding) ← Embedding.empty.addNode scope pattern.node
  embedding.addHops scope start pattern.hops

theorem ofPattern_agrees (scope scope' : Scope) (pattern : Pattern) :
    Agrees (ofPattern scope pattern) (ofPattern scope' pattern) := by
  apply agrees_bind (addNode_agrees _ _ _ _)
  intro start
  exact addHops_agrees _ _ _ _ _

end Embedding

/-! ## Whole tests -/

/-- What the pattern of a test comes to in a graph, if it can be looked for. -/
def embeds (graph : Graph) (pattern : Pattern) : Option Embedding :=
  ((Embedding.ofPattern (.test 0) pattern).run.run ⟨graph, 0⟩).1.toOption

theorem existence_eq (settings : Settings) (pattern : Pattern) :
    existence settings pattern = (do
      let embedding ← Embedding.ofPattern (.test (← freshPattern)) pattern
      return { Compiled.scalar [.existing (embedding.subselect settings)] with
        reads := embedding.touched }) := by
  simp only [existence, Embedding.ofPattern, bind_assoc]

/-- A test uses up one number, and mentions its pattern under it. -/
theorem run_existence (settings : Settings) (pattern : Pattern) (state : CompilerState) :
    (existence settings pattern).run.run state =
      let outcome := (Embedding.ofPattern (.test state.nextPattern) pattern).run.run
        { state with nextPattern := state.nextPattern + 1 }
      (outcome.1.map fun embedding =>
        { Compiled.scalar [.existing (embedding.subselect settings)] with
          reads := embedding.touched }, outcome.2) := by
  rw [existence_eq]
  change StateT.run (ExceptT.run (Embedding.ofPattern (.test state.nextPattern) pattern >>= _))
    { state with nextPattern := state.nextPattern + 1 } = _
  rw [run_bind]
  generalize (Embedding.ofPattern (.test state.nextPattern) pattern).run.run
    { state with nextPattern := state.nextPattern + 1 } = outcome
  obtain ⟨_ | embedding, after⟩ := outcome
  · rfl
  · rfl

/-- In every state with the slots of a graph, a test is for what its pattern comes to there. -/
theorem existence_result (settings : Settings) (pattern : Pattern) {graph : Graph}
    {state : CompilerState} (same : state.graph.unscoped = graph.unscoped) :
    ((existence settings pattern).run.run state).1.toOption =
      (embeds graph pattern).map fun embedding =>
        { Compiled.scalar [.existing (embedding.subselect settings)] with
          reads := embedding.touched } := by
  have agrees := (Embedding.ofPattern_agrees (.test 0) (.test state.nextPattern) pattern
    ⟨graph, 0⟩ { state with nextPattern := state.nextPattern + 1 } same).1
  rw [run_existence, embeds, agrees]
  dsimp only
  generalize ((Embedding.ofPattern (.test state.nextPattern) pattern).run.run
    { state with nextPattern := state.nextPattern + 1 }).1 = result
  cases result with
  | error error => rfl
  | ok embedding => rfl

end CypherSql.Compilation
