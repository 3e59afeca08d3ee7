import CypherSql.Proofs.Compilation.Filter

/-! # Which hops a query enforces

The filter of a query demands the ends of every hop that is the first to use the variable of
its relationship, or that has no variable.  It demands nothing for the other hops.  The
ends of such a hop then hold only where they follow from those of the founding hops.

* `Enforces` — a filter keeps only rows that join certain ends.
* `Query.enforces_iff` — which hops of a query its filter enforces.
-/

namespace CypherSql

open CypherSql.Cypher

namespace Compilation

open CypherSql.Graph (Numbered Slot SlotKind)
open CypherSql.Sql (Alias Fragment Leaf Record Test equal)

variable {V : Type} [DecidableEq V] (constant : String → V)

/-- Whatever rows satisfy the filter, they join these ends. -/
def Enforces (filter : Condition Leaf) (ends : Ends) : Prop :=
  ∀ (rows : Alias → Record V) (predicate : Fragment → Bool),
    filter.holds (Leaf.holds (Test.holds constant rows) predicate) = true →
      ends.joined rows = true

/-! ## Rows of suitable types -/

/-- The first label of a slot, as the type of a row. -/
def suitableType (graph : Graph) : Alias → Option V
  | .outer slot => (graph.labels slot).head?.map constant
  | _ => none

/-- The same rows, but of the types that the labels of a graph ask for. -/
def withTypes (graph : Graph) (rows : Alias → Record V) : Alias → Record V :=
  fun row column => if column = "type" then suitableType constant graph row else rows row column

theorem joined_withTypes (graph : Graph) (rows : Alias → Record V) (ends : Ends) :
    ends.joined (withTypes constant graph rows) = ends.joined rows := by
  have runs : ∀ start finish,
      ends.runs (withTypes constant graph rows) start finish = ends.runs rows start finish := by
    intro start finish
    simp [Ends.runs, withTypes]
  simp only [Ends.joined, runs]

theorem typed_withTypes (graph : Graph) (rows : Alias → Record V) (slot : Slot) :
    typed constant (withTypes constant graph rows) (.outer slot) (graph.labels slot) = true := by
  cases same : graph.labels slot with
  | nil => rfl
  | cons label labels => simp [typed, withTypes, suitableType, same, equal]

/-- Rows that join the ends of all relations satisfy the filter once their types suit the
labels and all predicates hold. -/
theorem holds_filterOf_withTypes {settings : Settings}
    (off : settings.optimizeEitherDirection = false) {graph : Graph} (numbered : graph.Numbered)
    (predicates : Predicates) {rows : Alias → Record V}
    (joined : ∀ ends ∈ graph.relations.map endsOf, ends.joined rows = true) :
    (filterOf settings graph predicates).holds
      (Leaf.holds (Test.holds constant (withTypes constant graph rows)) fun _ => true) = true := by
  rw [holds_filterOf, matchedEnds_eq off]
  simp only [Bool.and_eq_true, List.all_eq_true]
  refine ⟨⟨⟨?_, ?_⟩, ?_⟩, fun _ _ => trivial⟩
  · intro node isOne
    rw [← numbered.labels_node isOne]
    exact typed_withTypes constant graph rows _
  · intro relation isOne
    rw [← numbered.labels_relation isOne]
    exact typed_withTypes constant graph rows _
  · intro relation isOne
    rw [joined_withTypes]
    exact joined _ (List.mem_map_of_mem isOne)

/-- A filter enforces the ends that follow from those of the relations. -/
theorem enforces_filterOf_iff {settings : Settings}
    (off : settings.optimizeEitherDirection = false) {graph : Graph} (numbered : graph.Numbered)
    (predicates : Predicates) (ends : Ends) :
    Enforces constant (filterOf settings graph predicates) ends ↔
      ∀ rows : Alias → Record V, (∀ other ∈ graph.relations.map endsOf, other.joined rows = true) →
        ends.joined rows = true := by
  constructor
  -- Labels cannot tell the ends apart, since types can be chosen to suit all of them.
  · intro enforced rows joined
    have held := holds_filterOf_withTypes constant off numbered predicates joined
    rw [← joined_withTypes constant graph rows ends]
    exact enforced _ _ held
  · intro follows rows predicate held
    rw [holds_filterOf, matchedEnds_eq off] at held
    simp only [Bool.and_eq_true, List.all_eq_true] at held
    obtain ⟨⟨_, joined⟩, _⟩ := held
    apply follows rows
    intro other isOne
    obtain ⟨relation, isRelation, rfl⟩ := List.mem_map.mp isOne
    exact joined relation isRelation

end Compilation

open Compilation

open CypherSql.Sql (Alias Record)

/-- All hops of a query are placed on slots that their names mean, and the filter enforces the
ends of a hop exactly where they follow from those of the founding hops.  A founding hop
is enforced, therefore, while a hop that uses a relationship again is left to chance. -/
theorem Cypher.Query.enforces_iff {V : Type} [DecidableEq V] (constant : String → V)
    {settings : Settings} {query : Query} {selection : Sql.Selection}
    {projections : List Projection} (off : settings.optimizeEitherDirection = false)
    (selected : query.selection settings = .ok (selection, projections)) :
    ∃ progress placements, query.progress settings = .ok progress ∧
      query.placements settings = .ok placements ∧
      placements.map Placement.sourced = query.hops ∧
      ∀ placement ∈ placements, placement.Resolved progress.graph ∧
        (Enforces constant selection.condition placement.ends ↔
          ∀ rows : Alias → Record V,
            (∀ founder ∈ founding (fun _ => false) placements, founder.ends.joined rows = true) →
              placement.ends.joined rows = true) := by
  obtain ⟨progress, layout, final, page, progressed, _, laid, _, rfl, rfl⟩ :=
    Query.selection_ok selected
  obtain ⟨placements, placed, hops, traced⟩ := Query.placements_ok progressed
  -- The filter is made after `RETURN`, which adds no relation.
  have finalTraced := traced.append (.of_unscoped traced.numbered (layoutItems_ok laid).1)
  rw [List.append_nil] at finalTraced
  have ends : final.graph.relations.map endsOf =
      (founding (fun _ => false) placements).map Placement.ends := finalTraced.ends
  refine ⟨progress, placements, progressed, placed, hops, fun placement isOne => ?_⟩
  refine ⟨traced.resolved placement isOne, ?_⟩
  rw [enforces_filterOf_iff constant off finalTraced.numbered, ends]
  simp only [List.forall_mem_map]

/-! ## A relationship that is used twice -/

namespace Compilation

/-- Two hops that use one relationship, between different nodes. -/
def reusingText : String :=
  "MATCH (a)-[r]->(b), (c)-[r]->(d) RETURN c.value"

/-- The standard settings, except that every relation is matched in its own direction. -/
def exactSettings : Settings :=
  { Settings.standard with optimizeEitherDirection := false }

/-- Every node has a row of its own, and the relation runs from the first to the second. -/
def strayRows : Alias → Record Nat
  | .outer ⟨.node, index⟩, "id" => some index
  | .outer ⟨.relation, _⟩, "from_id" => some 0
  | .outer ⟨.relation, _⟩, "to_id" => some 1
  | _, _ => none

/-- The filter of a query lets rows pass that do not join the ends of one of its hops. -/
def Strays (rows : Alias → Record Nat) (selection : Sql.Selection)
    (placements : List Placement) : Bool :=
  selection.condition.holds (Sql.Leaf.holds (Sql.Test.holds (fun _ => 0) rows) fun _ => true) &&
    placements.any fun placement => !placement.ends.joined rows

theorem reusingText_strays : ∃ query selection projections placements,
    Query.parse reusingText = .ok query ∧
      query.selection exactSettings = .ok (selection, projections) ∧
      query.placements exactSettings = .ok placements ∧
      Strays strayRows selection placements = true := by
  have evaluated : ((Query.parse reusingText).toOption.any fun query =>
      (query.selection exactSettings).toOption.any fun selected =>
        (query.placements exactSettings).toOption.any (Strays strayRows selected.1)) = true := by
    decide +kernel
  simp only [Option.any_eq_true, toOption_eq_some] at evaluated
  obtain ⟨query, parsed, ⟨selection, projections⟩, selected, placements, placed, strays⟩ := evaluated
  exact ⟨query, selection, projections, placements, parsed, selected, placed, strays⟩

end Compilation

theorem Cypher.Query.enforces_iff_reusingText : ∃ query selection projections,
    Query.parse reusingText = .ok query ∧
      query.selection exactSettings = .ok (selection, projections) ∧
      ∃ progress placements, query.progress exactSettings = .ok progress ∧
        query.placements exactSettings = .ok placements ∧
        placements.map Placement.sourced = query.hops ∧
        ∀ placement ∈ placements, placement.Resolved progress.graph ∧
          (Enforces id selection.condition placement.ends ↔
            ∀ rows : Alias → Record String,
              (∀ founder ∈ founding (fun _ => false) placements,
                founder.ends.joined rows = true) →
                placement.ends.joined rows = true) := by
  obtain ⟨query, selection, projections, _, parsed, selected, _⟩ := reusingText_strays
  have off : exactSettings.optimizeEitherDirection = false := rfl
  exact ⟨query, selection, projections, parsed, selected, Query.enforces_iff id off selected⟩

/-- The second hop of that query is not enforced. -/
theorem Cypher.Query.not_enforces_reusingText :
    ¬ ∀ (query : Query) (selection : Sql.Selection) (projections : List Projection)
        (placements : List Placement), Query.parse reusingText = .ok query →
      query.selection exactSettings = .ok (selection, projections) →
      query.placements exactSettings = .ok placements →
      ∀ placement ∈ placements,
        Enforces (fun _ => (0 : Nat)) selection.condition placement.ends := by
  intro every
  obtain ⟨query, selection, projections, placements, parsed, selected, placed, strays⟩ :=
    reusingText_strays
  rw [Strays, Bool.and_eq_true, List.any_eq_true] at strays
  obtain ⟨held, placement, isOne, apart⟩ := strays
  have enforced := every query selection projections placements parsed selected placed
  have joined := enforced placement isOne strayRows (fun _ => true) held
  simp [joined] at apart

end CypherSql
