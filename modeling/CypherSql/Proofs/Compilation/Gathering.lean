import CypherSql.Proofs.Compilation.Runs

/-! # The predicates that a query gathers

The predicate of every `WHERE` is compiled behind everything that takes effect before it, and
gathered with the nodes that it reads.

* `Step.unique`, `Run.unique` — events lead from a draft to one draft only.
* `Query.wheres` — the predicates of a query, each where it stands.
* `Filters` — what a predicate is compiled to where it stands.
* `Run.gathers` — the predicates of the draft that a run ends in.
-/

namespace CypherSql

open CypherSql.Cypher

/-! ## Predicates of a query -/

/-- The predicate of a `WHERE`, be it behind `MATCH` or behind `WITH`. -/
def Cypher.Event.predicate? : Event → Option Expression
  | .filter predicate | .pass predicate => some predicate
  | .mention _ | .give _ | .list _ => none

def Cypher.Stage.isWhere (stage : Stage) : Bool :=
  stage.event.predicate?.isSome

def Cypher.Query.wheres (query : Query) : List Stage :=
  query.stages.filter Stage.isWhere

namespace Compilation

/-! ## Determinism -/

theorem Step.unique {draft after other : Draft} {event : Event} (step : Step draft event after)
    (second : Step draft event other) : other = after := by
  cases step with
  | mention bound =>
    cases second with
    | mention boundAgain =>
      obtain rfl := Except.ok.inj (bound.symm.trans boundAgain)
      rfl
  | filter compiles =>
    cases second with
    | filter compilesAgain =>
      obtain ⟨rfl, rfl⟩ := Prod.mk.inj (Except.ok.inj (compiles.symm.trans compilesAgain))
      rfl
  -- Whether an item gives a name can be read from the item.
  | give compiles named =>
    cases second with
    | give compilesAgain namedAgain =>
      obtain ⟨rfl, rfl⟩ := Prod.mk.inj (Except.ok.inj (compiles.symm.trans compilesAgain))
      obtain rfl := Option.some.inj (named.symm.trans namedAgain)
      rfl
    | keep _ unnamed => exact nomatch named.symm.trans unnamed
  | keep compiles unnamed =>
    cases second with
    | give _ named => exact nomatch named.symm.trans unnamed
    | keep compilesAgain _ =>
      obtain ⟨rfl, rfl⟩ := Prod.mk.inj (Except.ok.inj (compiles.symm.trans compilesAgain))
      rfl
  | pass compiles =>
    cases second with
    | pass compilesAgain =>
      obtain ⟨rfl, rfl⟩ := Prod.mk.inj (Except.ok.inj (compiles.symm.trans compilesAgain))
      rfl
  | list compiles =>
    cases second with
    | list compilesAgain =>
      obtain ⟨rfl, rfl⟩ := Prod.mk.inj (Except.ok.inj (compiles.symm.trans compilesAgain))
      rfl

theorem Run.unique {draft final other : Draft} {events : List Event} (run : Run draft events final)
    (second : Run draft events other) : other = final := by
  induction run with
  | nil draft =>
    cases second with
    | nil => rfl
  | cons step _ ih =>
    cases second with
    | cons stepAgain rest =>
      obtain rfl := step.unique stepAgain
      exact ih rest

/-! ## Gathering -/

/-- The predicate of a stage is compiled to this behind everything that takes effect before it. -/
def Filters (settings : Settings) (stage : Stage) (compiled : Compiled) : Prop :=
  ∃ before predicate next, Run (.start settings) stage.earlier before ∧
    stage.event.predicate? = some predicate ∧
    before.progress.compile predicate = .ok (compiled, next)

/-- An event adds its predicate, if it has one, and changes no other. -/
theorem Step.gathers {draft after : Draft} {event : Event} (step : Step draft event after) :
    (event.predicate? = none ∧ after.progress.predicates = draft.progress.predicates) ∨
      ∃ predicate compiled next, event.predicate? = some predicate ∧
        draft.progress.compile predicate = .ok (compiled, next) ∧
        after.progress.predicates = draft.progress.predicates.add compiled := by
  cases step with
  | mention => exact .inl ⟨rfl, rfl⟩
  | filter compiles | pass compiles =>
    refine .inr ⟨_, _, _, rfl, compiles, ?_⟩
    dsimp only
    rw [(Progress.compile_ok compiles).2.2]
  | give compiles | keep compiles | list compiles =>
    exact .inl ⟨rfl, (Progress.compile_ok compiles).2.2⟩

theorem Run.gathers {settings : Settings} {earlier events : List Event} {draft final : Draft}
    (run : Run draft events final) (reached : Run (.start settings) earlier draft) :
    ∃ wheres, List.Forall₂ (Filters settings)
        ((stagesFrom earlier events).filter Stage.isWhere) wheres ∧
      final.progress.predicates = wheres.foldl Predicates.add draft.progress.predicates := by
  induction run generalizing earlier with
  | nil => exact ⟨[], .nil, rfl⟩
  | @cons draft next final event rest step run ih =>
    -- Every draft on the way is reached from the start, so each predicate has its own run.
    obtain ⟨wheres, filters, gathered⟩ := ih (reached.append (.single step))
    rcases step.gathers with ⟨isNone, same⟩ | ⟨predicate, compiled, _, isOne, compiles, added⟩
    · have isOther : Stage.isWhere ⟨earlier, event⟩ = false := congrArg Option.isSome isNone
      refine ⟨wheres, ?_, same ▸ gathered⟩
      rwa [stagesFrom, List.filter_cons_of_neg (by rw [isOther]; exact Bool.false_ne_true)]
    · have isWhere : Stage.isWhere ⟨earlier, event⟩ = true := congrArg Option.isSome isOne
      refine ⟨compiled :: wheres, ?_, ?_⟩
      · rw [stagesFrom, List.filter_cons_of_pos isWhere]
        exact .cons ⟨draft, predicate, _, reached, isOne, compiles⟩ filters
      · rw [gathered, added, List.foldl_cons]

/-- Predicates one after the other. -/
def gather (wheres : List Compiled) : Predicates :=
  wheres.foldl Predicates.add .empty

theorem foldl_add (predicates : Predicates) (wheres : List Compiled) :
    wheres.foldl Predicates.add predicates =
      ⟨predicates.fragments ++ wheres.map Compiled.conjunct,
        predicates.readNodes ++ wheres.flatMap fun compiled => nodeIndices compiled.reads⟩ := by
  induction wheres generalizing predicates with
  | nil => simp
  | cons compiled rest ih => simp [ih, Predicates.add]

theorem fragments_gather (wheres : List Compiled) :
    (gather wheres).fragments = wheres.map Compiled.conjunct := by
  rw [gather, foldl_add]
  rfl

theorem readNodes_gather (wheres : List Compiled) : (gather wheres).readNodes =
    wheres.flatMap fun compiled => nodeIndices compiled.reads := by
  rw [gather, foldl_add]
  rfl

theorem mem_nodeIndices {slots : List Graph.Slot} {index : Nat} :
    index ∈ nodeIndices slots ↔ ⟨.node, index⟩ ∈ slots := by
  rw [nodeIndices, List.mem_map]
  constructor
  · rintro ⟨⟨kind, _⟩, isOne, rfl⟩
    obtain ⟨isSlot, isNode⟩ := List.mem_filter.mp isOne
    obtain rfl := eq_of_beq isNode
    exact isSlot
  · intro isSlot
    exact ⟨_, List.mem_filter.mpr ⟨isSlot, rfl⟩, rfl⟩

end Compilation

open Compilation

/-- A query filters by what its predicates are compiled to, each where it stands. -/
theorem Cypher.Query.gathers {settings : Settings} {query : Query} {final : Draft}
    (run : Run (.start settings) query.events final) :
    ∃ wheres, List.Forall₂ (Filters settings) query.wheres wheres ∧
      final.progress.predicates = gather wheres :=
  run.gathers (.nil _)

end CypherSql
