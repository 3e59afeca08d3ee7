import CypherSql.Proofs.Compilation.Filter
import CypherSql.Proofs.Compilation.Ties
import CypherSql.Proofs.Condition.Traces
import CypherSql.Proofs.Sql.Assembled
import CypherSql.Proofs.Sql.Names

/-! # What a test for a pattern says

A test for a pattern holds when some rows are an embedding of the pattern: they have the labels of
its slots, its hops join them, and those whose names are bound outside are the outer rows.  The
rows that are looked for are a query of their own, which is one `SELECT`.

* `Subselect.selection` — the rows that are looked for, as a query of its own.
* `IsEmbedding` — rows that match a pattern.
* `holds_condition_iff` — the condition of a test says just that.
* `Matches`, `embeds_matches` — what the pattern of a test comes to.
-/

namespace CypherSql

/-! ## Sub-selects as queries -/

namespace Sql

namespace Subselect

variable (sub : Subselect)

/-- The query with the written condition as its only leaf. -/
def selection : Selection where
  distinct := false
  columns := [.plain (.given "1")]
  sources := sub.sources.map fun source => .table source.1 (some source.2)
  joins := []
  condition := .leaf (.predicate (.given (sub.condition.text Test.text)))
  grouping := []
  aggregated := false
  page := ⟨none, none⟩

def branch : Branch Statement where
  distinct := false
  columns := [.plain (.given "1")]
  sources := sub.sources.map fun source => .table source.1 (some source.2)
  joins := []
  condition := .leaf (.predicate (.given (sub.condition.text Test.text)))
  keys := []

/-- One leaf is one clause, so the query is never a union. -/
theorem assemble_selection :
    sub.selection.assemble = .ok (.single sub.branch ⟨none, none⟩) := by
  rw [selection, Selection.assemble, assembleSources_tables]
  rfl

theorem text_branch : (Statement.single sub.branch ⟨none, none⟩).text = sub.text := by
  have condition : (Condition.leaf (.predicate (.given (sub.condition.text Test.text)))).text Leaf.text =
      sub.condition.text Test.text := by
    simp [Condition.text, Condition.tokens, Condition.written, Condition.Token.text, Leaf.text,
      Fragment.given, Fragment.text, Lexeme.text]
  have one : (Column.plain (.given "1")).text = "1" := by decide
  have head : "SELECT " ++ ", ".intercalate ["1"] = "SELECT 1" := by decide
  simp only [Statement.text, branch, branchText, sourceTexts_eq, text, condition, clauseText, listText,
    List.isEmpty_map, List.map_cons, List.map_nil, one, Page.text, Bool.false_eq_true, if_false,
    String.join_nil, List.isEmpty_nil, if_true, String.append_empty, head]

end Subselect

/-- The letter of a slot and its number are its own, whatever stands between them. -/
theorem slot_eq_of_text (middle : String) {first second : Graph.Slot}
    (same : letter first.kind ++ middle ++ toString first.index =
      letter second.kind ++ middle ++ toString second.index) : first = second := by
  obtain ⟨kind, index⟩ := first
  obtain ⟨otherKind, otherIndex⟩ := second
  have texts := congrArg String.toList same
  simp only [String.toList_append] at texts
  -- The first letter tells the kind, and all that follows the middle is the number.
  cases kind <;> cases otherKind <;> simp [letter] at texts
  all_goals
    have numbers : index.repr = otherIndex.repr := String.toList_inj.mp (by simpa using texts)
    rw [repr_injective numbers]

theorem inner_text_injective {first second : Graph.Slot}
    (same : (Alias.inner first).text = (Alias.inner second).text) : first = second :=
  slot_eq_of_text "w" same

theorem outer_text_injective {first second : Graph.Slot}
    (same : (Alias.outer first).text = (Alias.outer second).text) : first = second := by
  apply slot_eq_of_text ""
  simpa [Alias.text] using same

end Sql

namespace Compilation

open CypherSql.Cypher (Hop NodePattern Pattern)
open CypherSql.Graph (Slot SlotKind properName)
open CypherSql.Sql (Alias Record Subselect Test equal)

/-! ## Rows that match a pattern -/

section

variable {V : Type} [DecidableEq V] (constant : String → V) (rows : Alias → Record V)

/-- The rows of the pattern, in the place of those outside. -/
def inside : Alias → Record V
  | .outer slot => rows (.inner slot)
  | other => rows other

/-- Rows of pattern slots and of outer slots that match a pattern with these slots and hops: every
slot has one of its labels, if it has any, every hop joins the nodes it stands between, and every
slot with a name that is bound outside has the number of the outer slot. -/
structure IsEmbedding (outer inner : Graph) (placements : List Placement) : Prop where
  typed : ∀ slot : Slot, slot.index < inner.size slot.kind →
    typed constant rows (.inner slot) (inner.labels slot) = true
  joined : ∀ placement ∈ placements, placement.ends.joined (inside rows) = true
  tied : ∀ placement ∈ placements, ∀ mention ∈ placement.mentions, ∀ found,
    mention.outer? outer = some found →
      equal (rows (.inner mention.slot) "id") (rows (.outer found) "id") = true

/-! ## The condition -/

theorem holds_innerEnds (ends : Ends) :
    (endCondition (innerRelation ends.relation) (innerNode ends.left) (innerNode ends.right)
      ends.direction).holds (Test.holds constant rows) = ends.joined (inside rows) := by
  rw [← holds_endCondition constant]
  cases ends.direction <;>
    simp [endCondition, runsBetween, Test.holds, inside, innerRelation, innerNode, relationRow, nodeRow]

/-- What the ties, the labels and the ends of the slots say. -/
theorem holds_embeddingCondition (embedding : Embedding) :
    embedding.condition.holds (Test.holds constant rows) =
      (embedding.ties.all (Test.holds constant rows) &&
        embedding.graph.nodes.all (fun node =>
          typed constant rows (innerNode node.id) node.labels) &&
        embedding.graph.relations.all fun relation =>
          typed constant rows (innerRelation relation.id) relation.labels &&
            (endsOf relation).joined (inside rows)) := by
  have ties : (Condition.holds (Test.holds constant rows)) ∘ Condition.leaf =
      Test.holds constant rows := rfl
  have ends : ∀ relation : Graph.Relation, _ = (endsOf relation).joined (inside rows) :=
    fun relation => holds_innerEnds constant rows (endsOf relation)
  simp only [endsOf] at ends
  rw [Embedding.condition, Condition.holds_all, List.all_append, List.all_append, List.all_map,
    ties, List.all_flatMap, List.all_flatMap]
  simp only [List.all_append, all_holds_labelCondition, List.all_cons, List.all_nil, Bool.and_true,
    ends, endsOf]

/-! ## Slots by their numbers -/

theorem forall_slot_iff {graph : Graph} (numbered : graph.Numbered) :
    (∀ slot : Slot, slot.index < graph.size slot.kind →
        typed constant rows (.inner slot) (graph.labels slot) = true) ↔
      (∀ node ∈ graph.nodes, typed constant rows (innerNode node.id) node.labels = true) ∧
        ∀ relation ∈ graph.relations,
          typed constant rows (innerRelation relation.id) relation.labels = true := by
  have nodes : ∀ index, index < graph.nodes.length ↔ ∃ node ∈ graph.nodes, node.id = index := by
    simp [← List.mem_range, ← numbered.nodes]
  have relations : ∀ index, index < graph.relations.length ↔
      ∃ relation ∈ graph.relations, relation.id = index := by
    simp [← List.mem_range, ← numbered.relations]
  constructor
  · intro all
    constructor
    · intro node isOne
      have slot := all ⟨.node, node.id⟩ ((nodes node.id).mpr ⟨node, isOne, rfl⟩)
      rwa [numbered.labels_node isOne] at slot
    · intro relation isOne
      have slot := all ⟨.relation, relation.id⟩
        ((relations relation.id).mpr ⟨relation, isOne, rfl⟩)
      rwa [numbered.labels_relation isOne] at slot
  · rintro ⟨allNodes, allRelations⟩ ⟨kind, index⟩ there
    cases kind with
    | node =>
      obtain ⟨node, isOne, rfl⟩ := (nodes index).mp there
      rw [numbered.labels_node isOne]
      exact allNodes node isOne
    | relation =>
      obtain ⟨relation, isOne, rfl⟩ := (relations index).mp there
      rw [numbered.labels_relation isOne]
      exact allRelations relation isOne

/-- The condition of a test holds for the rows that match its pattern. -/
theorem holds_condition_iff {outer : Graph} {placements : List Placement} {embedding : Embedding}
    (tied : Tied outer (placements.flatMap Placement.mentions) embedding)
    (ends : embedding.graph.relations.map endsOf = placements.map Placement.ends) :
    embedding.condition.holds (Test.holds constant rows) = true ↔
      IsEmbedding constant rows outer embedding.graph placements := by
  have tests : embedding.ties.all (Test.holds constant rows) = true ↔
      ∀ placement ∈ placements, ∀ mention ∈ placement.mentions, ∀ found,
        mention.outer? outer = some found →
          equal (rows (.inner mention.slot) "id") (rows (.outer found) "id") = true := by
    simp only [List.all_eq_true, tied.ties, List.mem_flatMap]
    constructor
    · intro all placement isPlacement mention isMention found bound
      exact all _ ⟨mention, ⟨placement, isPlacement, isMention⟩, found, bound, rfl⟩
    · rintro all _ ⟨mention, ⟨placement, isPlacement, isMention⟩, found, bound, rfl⟩
      exact all placement isPlacement mention isMention found bound
  have joined : (∀ relation ∈ embedding.graph.relations,
      (endsOf relation).joined (inside rows) = true) ↔
        ∀ placement ∈ placements, placement.ends.joined (inside rows) = true := by
    rw [← List.forall_mem_map (f := endsOf) (P := fun ends => ends.joined (inside rows) = true), ends,
      List.forall_mem_map]
  rw [holds_embeddingCondition, Bool.and_eq_true, Bool.and_eq_true, tests]
  simp only [List.all_eq_true, Bool.and_eq_true, forall_and]
  rw [joined]
  have typed := forall_slot_iff constant rows tied.wellFormed.numbered
  constructor
  · rintro ⟨⟨ties, nodes⟩, relations, hops⟩
    exact ⟨typed.mpr ⟨nodes, relations⟩, hops, ties⟩
  · intro isEmbedding
    obtain ⟨nodes, relations⟩ := typed.mp isEmbedding.typed
    exact ⟨⟨isEmbedding.tied, nodes⟩, relations, isEmbedding.joined⟩

end

/-! ## Every part is written -/

def blankTest (test : Test) : Bool :=
  test.text.isEmpty

theorem blankTest_eq_false (test : Test) : blankTest test = false := by
  cases test <;> simp [blankTest, Test.text]

theorem isSolid_labelCondition {row : Alias} {labels : List String} {condition : Condition Test}
    (isOne : condition ∈ (labelCondition row labels).toList) :
    condition.isSolid blankTest = true := by
  obtain ⟨present, rfl⟩ := mem_labelCondition.mp isOne
  simp [present, blankTest_eq_false]

theorem isSolid_endCondition (relation left right : Alias) (direction : Graph.Direction) :
    (endCondition relation left right direction).isSolid blankTest = true := by
  cases direction <;>
    simp [endCondition, runsBetween, blankTest_eq_false]

theorem isSolid_condition {embedding : Embedding} (present : embedding.graph.relations ≠ []) :
    embedding.condition.isSolid blankTest = true := by
  obtain ⟨first, rest, isList⟩ := List.exists_cons_of_ne_nil present
  rw [Embedding.condition, Condition.isSolid_all]
  constructor
  · simp [isList]
  · intro child isChild
    simp only [List.mem_append, List.mem_map, List.mem_flatMap, List.mem_singleton] at isChild
    rcases isChild with (⟨test, _, rfl⟩ | ⟨node, _, isOne⟩) | ⟨relation, _, isOne | rfl⟩
    · simp [blankTest_eq_false]
    · exact isSolid_labelCondition isOne
    · exact isSolid_labelCondition isOne
    · exact isSolid_endCondition _ _ _ _

/-! ## Relations of a pattern -/

/-- Every hop founds a relation of its own, when no relationship has its variable twice. -/
theorem founding_eq_self {used : String → Bool} {placements : List Placement}
    (once : (placements.filterMap Placement.name).Nodup)
    (unused : ∀ name ∈ placements.filterMap Placement.name, used name = false) :
    founding used placements = placements := by
  induction placements generalizing used with
  | nil => rfl
  | cons placement rest ih =>
    rw [founding]
    cases isName : placement.name with
    | none =>
      rw [List.filterMap_cons_none isName] at once unused
      simpa [isName] using ih once unused
    | some given =>
      rw [List.filterMap_cons_some isName] at once unused
      obtain ⟨fresh, others⟩ := List.nodup_cons.mp once
      have first : used given = false := unused given List.mem_cons_self
      rw [ih others]
      · simp [first]
      · intro name isOne
        have apart : given ≠ name := by
          rintro rfl
          exact fresh isOne
        simp [apart, unused name (List.mem_cons_of_mem _ isOne)]

theorem map_hop_hopsFrom (source : NodePattern) (hops : List Hop) :
    (hopsFrom source hops).map Prod.snd = hops := by
  induction hops generalizing source with
  | nil => rfl
  | cons hop rest ih => rw [hopsFrom, List.map_cons, ih]

/-- The variables of the relationships of a pattern. -/
def relationshipNames (pattern : Pattern) : List String :=
  pattern.hops.filterMap fun hop => properName hop.relationship.name

theorem filterMap_name_eq {pattern : Pattern} {placements : List Placement}
    (sourced : placements.map Placement.sourced = hopsFrom pattern.node pattern.hops) :
    placements.filterMap Placement.name = relationshipNames pattern := by
  rw [relationshipNames, ← map_hop_hopsFrom pattern.node pattern.hops, ← sourced,
    List.map_map, List.filterMap_map]
  rfl

/-! ## Sources -/

/-- Every slot of a graph with its table, under an alias of its own. -/
def patternSources (settings : Settings) (graph : Graph) : List (String × Alias) :=
  (List.range graph.nodes.length).map (fun index => (settings.assetsTable, innerNode index)) ++
    (List.range graph.relations.length).map fun index =>
      (settings.relationsTable, innerRelation index)

theorem subselect_sources (settings : Settings) {embedding : Embedding}
    (numbered : embedding.graph.Numbered) :
    (embedding.subselect settings).sources = patternSources settings embedding.graph := by
  rw [patternSources, ← numbered.nodes, ← numbered.relations, List.map_map, List.map_map]
  rfl

theorem nodup_patternSources (settings : Settings) (graph : Graph) :
    ((patternSources settings graph).map fun source => source.2.text).Nodup := by
  have nodes : Function.Injective fun index => (innerNode index).text :=
    fun _ _ same => congrArg Slot.index (Sql.inner_text_injective same)
  have relations : Function.Injective fun index => (innerRelation index).text :=
    fun _ _ same => congrArg Slot.index (Sql.inner_text_injective same)
  rw [patternSources, List.map_append, List.map_map, List.map_map]
  refine (List.nodup_range.map nodes).append (List.nodup_range.map relations) ?_
  intro text isNode isRelation
  obtain ⟨index, _, rfl⟩ := List.mem_map.mp isNode
  obtain ⟨other, _, same⟩ := List.mem_map.mp isRelation
  have kinds := congrArg Slot.kind (Sql.inner_text_injective same)
  contradiction

/-! ## Whole tests -/

/-- What the pattern of a test comes to: hops between slots of its own, of which one is there for
every hop, and a condition that holds for the rows that match the pattern and for no others. -/
structure Matches (outer : Graph) (pattern : Pattern) (embedding : Embedding)
    (placements : List Placement) : Prop where
  placed : placePattern .empty pattern = .ok (placements, embedding.graph)
  sourced : placements.map Placement.sourced = hopsFrom pattern.node pattern.hops
  resolved : ∀ placement ∈ placements, placement.Resolved embedding.graph
  numbered : embedding.graph.Numbered
  present : embedding.graph.relations ≠ []
  holds_iff : ∀ {V : Type} [DecidableEq V] (constant : String → V) (rows : Alias → Record V),
    embedding.condition.holds (Test.holds constant rows) = true ↔
      IsEmbedding constant rows outer embedding.graph placements

theorem embeds_matches {outer : Graph} {pattern : Pattern} {embedding : Embedding}
    (present : pattern.hops ≠ []) (once : (relationshipNames pattern).Nodup)
    (isEmbedding : embeds outer pattern = some embedding) :
    ∃ placements, Matches outer pattern embedding placements := by
  obtain ⟨placements, placed, tied⟩ :=
    (Embedding.ofPattern_yields outer (.test 0) present ⟨outer, 0⟩ rfl).2 embedding
      (toOption_eq_some.mp isEmbedding)
  obtain ⟨sourced, traced⟩ := placePattern_ok Graph.numbered_empty placed
  have ends : embedding.graph.relations.map endsOf = placements.map Placement.ends := by
    have all : founding (namesRelation .empty) placements = placements :=
      founding_eq_self (filterMap_name_eq sourced ▸ once) fun _ _ => rfl
    rw [traced.ends, all]
    rfl
  have relations : embedding.graph.relations ≠ [] := by
    intro none
    rw [none, List.map_nil, eq_comm, List.map_eq_nil_iff] at ends
    rw [ends, List.map_nil, eq_comm] at sourced
    have hops := map_hop_hopsFrom pattern.node pattern.hops
    rw [sourced] at hops
    exact present hops.symm
  exact ⟨placements,
    { placed, sourced, resolved := traced.resolved, numbered := tied.wellFormed.numbered
      present := relations
      holds_iff := fun constant rows => holds_condition_iff constant rows tied ends }⟩

end Compilation

end CypherSql
