import CypherSql.Proofs.Compilation.Filter
import CypherSql.Proofs.Compilation.Results
import CypherSql.Proofs.Sql.Database

/-! # How often a match is returned

A query is split into a branch for every choice of one label for each slot and of one direction
for each undirected relation.  A match is returned by every branch whose choice fits it: twice,
for instance, when a label is written twice, or when an undirected relation runs from a node to
itself.

* `Unambiguous` — one choice fits a match.
* `ways_filterOf_le_one_iff` — the filter holds in one way for such matches.
* `Query.result_perm_iff` — when a query returns every match once.
-/

namespace CypherSql

open CypherSql.Cypher

namespace Compilation

open CypherSql.Sql (Alias Database Fragment Leaf Record Source Statement Test equal)

section

variable {V : Type} [DecidableEq V] (constant : String → V) (rows : Alias → Record V)

/-! ## Ways of a filter -/

/-- How many of the labels are the type of a row. -/
def fittingLabels (row : Alias) (labels : List String) : Nat :=
  labels.countP fun label => equal (rows row "type") (some (constant label))

/-- An undirected relation fits in one direction only. -/
def fitsOneWay (ends : Ends) : Prop :=
  ends.direction = .either →
    ¬ (ends.runs rows ends.left ends.right = true ∧ ends.runs rows ends.right ends.left = true)

/-- One label of every slot fits, and one direction of every undirected relation. -/
structure Unambiguous (settings : Settings) (graph : Graph) (predicates : Predicates) : Prop where
  nodes : ∀ node ∈ graph.nodes, fittingLabels constant rows (nodeRow node.id) node.labels ≤ 1
  relations : ∀ relation ∈ graph.relations,
    fittingLabels constant rows (relationRow relation.id) relation.labels ≤ 1
  directions : ∀ relation ∈ graph.relations,
    fitsOneWay rows (matchedEnds settings graph predicates relation)

variable {constant rows}

theorem prod_eq_one_iff {counts : List Nat} : counts.prod = 1 ↔ ∀ count ∈ counts, count = 1 := by
  induction counts with
  | nil => simp
  | cons count rest ih =>
    rw [List.prod_cons, List.forall_mem_cons, ← ih]
    constructor
    · intro product
      exact ⟨Nat.eq_one_of_mul_eq_one_right product, Nat.eq_one_of_mul_eq_one_left product⟩
    · rintro ⟨first, others⟩
      rw [first, others]

theorem prod_ways_labelCondition {row : Alias} {labels : List String}
    (isTyped : typed constant rows row labels = true) :
    (∀ condition ∈ labelCondition row labels, condition.ways (Test.holds constant rows) = 1) ↔
      fittingLabels constant rows row labels ≤ 1 := by
  cases labels with
  | nil => simp [labelCondition, fittingLabels]
  | cons label rest =>
    have some : 0 < fittingLabels constant rows row (label :: rest) := by
      rw [fittingLabels, List.countP_pos_iff]
      simpa [typed] using isTyped
    simp only [labelCondition, List.isEmpty_cons, Bool.false_eq_true, if_false, Option.mem_def,
      Option.some.injEq, forall_eq', Condition.ways_any_leaves]
    show fittingLabels constant rows row (label :: rest) = 1 ↔ _
    omega

theorem ways_runsBetween (ends : Ends) (start finish : Nat) :
    (runsBetween (relationRow ends.relation) (nodeRow start) (nodeRow finish)).ways
        (Test.holds constant rows) = if ends.runs rows start finish then 1 else 0 := by
  have both : ∀ leaves arrives : Bool, ([if leaves then 1 else 0, if arrives then 1 else 0] : List Nat).prod =
      if leaves && arrives then 1 else 0 := by
    decide
  exact both _ _

theorem ways_endCondition {ends : Ends} (joined : ends.joined rows = true) :
    (endCondition (relationRow ends.relation) (nodeRow ends.left) (nodeRow ends.right)
        ends.direction).ways (Test.holds constant rows) = 1 ↔ fitsOneWay rows ends := by
  unfold Ends.joined at joined
  cases isDirection : ends.direction with
  | either =>
    simp only [isDirection, Bool.or_eq_true] at joined
    simp only [endCondition, Condition.ways_any, List.map_cons, List.map_nil, List.sum_cons,
      List.sum_nil, ways_runsBetween, fitsOneWay, isDirection, forall_const]
    -- Each way counts once, so only where both run does the sum pass one.
    split <;> split <;> simp_all
  | right =>
    simp only [isDirection] at joined
    simp [endCondition, ways_runsBetween, fitsOneWay, isDirection, joined]
  | left =>
    simp only [isDirection] at joined
    simp [endCondition, ways_runsBetween, fitsOneWay, isDirection, joined]
  | both =>
    simp only [isDirection, Bool.and_eq_true] at joined
    simp [endCondition, ways_runsBetween, fitsOneWay, isDirection, joined]

/-- Where the filter holds, it holds in one way exactly for unambiguous matches. -/
theorem ways_filterOf_eq_one_iff {settings : Settings} {graph : Graph} {predicates : Predicates}
    {predicate : Fragment → Bool}
    (holds : (filterOf settings graph predicates).holds
      (Leaf.holds (Test.holds constant rows) predicate) = true) :
    (filterOf settings graph predicates).ways (Leaf.holds (Test.holds constant rows) predicate) = 1 ↔
      Unambiguous constant rows settings graph predicates := by
  rw [holds_filterOf] at holds
  simp only [Bool.and_eq_true, List.all_eq_true] at holds
  obtain ⟨⟨⟨nodes, relations⟩, joined⟩, held⟩ := holds
  have shape : Leaf.holds (Test.holds constant rows) predicate ∘ Leaf.shape =
      Test.holds constant rows := rfl
  rw [filterOf, Condition.ways_all, prod_eq_one_iff]
  simp only [List.forall_mem_map, List.forall_mem_append, labelConditions, endConditions,
    List.forall_mem_flatMap, Condition.ways_map, shape, Option.mem_toList]
  constructor
  · rintro ⟨⟨⟨nodeLabels, relationLabels⟩, ends⟩, _⟩
    exact ⟨fun node isOne => (prod_ways_labelCondition (nodes node isOne)).mp (nodeLabels node isOne),
      fun relation isOne =>
        (prod_ways_labelCondition (relations relation isOne)).mp (relationLabels relation isOne),
      fun relation isOne => (ways_endCondition (joined relation isOne)).mp (ends relation isOne)⟩
  · intro unambiguous
    refine ⟨⟨⟨?_, ?_⟩, ?_⟩, ?_⟩
    · intro node isOne
      exact (prod_ways_labelCondition (nodes node isOne)).mpr (unambiguous.nodes node isOne)
    · intro relation isOne
      exact (prod_ways_labelCondition (relations relation isOne)).mpr
        (unambiguous.relations relation isOne)
    · intro relation isOne
      exact (ways_endCondition (joined relation isOne)).mpr (unambiguous.directions relation isOne)
    · intro fragment isOne
      exact if_pos (held fragment isOne)

theorem ways_filterOf_le_one_iff (settings : Settings) (graph : Graph) (predicates : Predicates)
    (predicate : Fragment → Bool) :
    (filterOf settings graph predicates).ways (Leaf.holds (Test.holds constant rows) predicate) ≤ 1 ↔
      ((filterOf settings graph predicates).holds
        (Leaf.holds (Test.holds constant rows) predicate) = true →
          Unambiguous constant rows settings graph predicates) := by
  have positive := @Condition.ways_pos Leaf (Leaf.holds (Test.holds constant rows) predicate)
    (filterOf settings graph predicates)
  by_cases holds : (filterOf settings graph predicates).holds
      (Leaf.holds (Test.holds constant rows) predicate) = true
  · have some := positive.mpr holds
    rw [← ways_filterOf_eq_one_iff holds]
    constructor
    · intro bound _
      omega
    · intro same
      exact (same holds).le
  · have none := mt positive.mp holds
    constructor
    · intro _ held
      exact absurd held holds
    · intro _
      omega

end

/-! ## Tables of slots -/

def slotTables (settings : Settings) (graph : Graph) : List (Source Statement) :=
  graph.nodes.map (fun node => .table settings.assetsTable (some (nodeRow node.id))) ++
    graph.relations.map fun relation =>
      .table settings.relationsTable (some (relationRow relation.id))

theorem assembleSources_append {first others : List (Source Sql.Selection)}
    {tables rest : List (Source Statement)} (areFirst : Sql.assembleSources first = .ok tables)
    (areOthers : Sql.assembleSources others = .ok rest) :
    Sql.assembleSources (first ++ others) = .ok (tables ++ rest) := by
  induction first generalizing tables with
  | nil =>
    rw [Sql.assembleSources] at areFirst
    obtain rfl := Except.ok.inj areFirst
    exact areOthers
  | cons source sources ih =>
    rw [Sql.assembleSources] at areFirst
    obtain ⟨table, isTable, areFirst⟩ := bind_eq_ok.mp areFirst
    obtain ⟨more, areMore, areFirst⟩ := bind_eq_ok.mp areFirst
    obtain rfl := pure_eq_ok.mp areFirst
    rw [List.cons_append, Sql.assembleSources, isTable, ok_bind, ih areMore]
    rfl

theorem assembleSources_sourcesOf (settings : Settings) (graph : Graph) :
    Sql.assembleSources (sourcesOf settings graph) = .ok (slotTables settings graph) :=
  assembleSources_append (Sql.assembleSources_tables _ _ _) (Sql.assembleSources_tables _ _ _)

end Compilation

open Compilation

open CypherSql.Sql (Database)

/-- A query without `DISTINCT` and aggregates returns every match as often as there are ways in
which the filter holds for it.  That is once, as from one `SELECT` with the same filter,
exactly when no match in the database is ambiguous. -/
theorem Cypher.Query.result_perm_iff {settings : Settings} {query : Query}
    {compiled : CompiledQuery} {selection : Sql.Selection} {projections : List Projection}
    (compiles : query.compile settings = .ok compiled)
    (selected : query.selection settings = .ok (selection, projections))
    (plain : query.returnClause.distinct = false) (unaggregated : selection.aggregated = false) :
    ∃ graph predicates, selection.sources = sourcesOf settings graph ∧
      selection.condition = filterOf settings graph predicates ∧
      compiled.statement.page = selection.page ∧
      ∀ {V : Type} [DecidableEq V] (db : Database V),
        (compiled.statement.result db).Perm
            ((db.assignments (slotTables settings graph)).flatMap fun rows =>
              List.replicate (selection.condition.ways (db.reading.truth rows))
                (Sql.rowOf db.reading selection.columns [rows])) ∧
          ((compiled.statement.result db).Perm
              ((selection.unsplit (slotTables settings graph)).result db) ↔
            ∀ rows ∈ db.assignments (slotTables settings graph),
              selection.condition.holds (db.reading.truth rows) = true →
                Unambiguous db.constant rows settings graph predicates) := by
  have unmerged := Query.needsMerging_eq_false selected unaggregated
  obtain ⟨⟨again, _⟩, selectedAgain, compiles⟩ := bind_eq_ok.mp compiles
  -- The statement is assembled from the selection that is given.
  obtain ⟨rfl, rfl⟩ := Prod.mk.inj (Except.ok.inj (selectedAgain.symm.trans selected))
  obtain ⟨statement, succeeds, isCompiled⟩ := bind_eq_ok.mp compiles
  obtain rfl := pure_eq_ok.mp isCompiled
  rw [mapError_eq_ok] at succeeds
  obtain ⟨progress, layout, final, page, _, _, _, _, rfl, rfl⟩ := Query.selection_ok selected
  have areSources := assembleSources_sourcesOf settings final.graph
  refine ⟨final.graph, final.predicates, rfl, rfl, Sql.Selection.page_ok succeeds, ?_⟩
  intro V _ db
  refine ⟨Sql.Selection.result_perm_ways succeeds areSources unmerged plain rfl db, ?_⟩
  rw [Sql.Selection.result_perm_unsplit_iff succeeds areSources unmerged plain rfl db]
  apply forall₂_congr
  intro rows _
  exact ways_filterOf_le_one_iff settings final.graph final.predicates (db.predicate rows)

/-! ## A label that is written twice -/

namespace Compilation

def repeatedLabelText : String :=
  "MATCH (n:ip:ip) RETURN n"

def oneAddress : Database String where
  table name :=
    if name = "assets" then [fun column => some (if column = "type" then "ip" else "1")] else []
  nested _ := []
  extend _ _ := []
  constant := id
  predicate _ _ := true
  value _ _ := some "1"
  otherAggregate _ _ _ := .data none

/-- A query that neither aggregates nor drops repeated rows gets a statement that returns more
rows than the query does as one `SELECT`. -/
def Repeats (db : Database String) (query : Query) (statement : Sql.Statement)
    (selection : Sql.Selection) (graph : Graph) : Bool :=
  !query.returnClause.distinct && !selection.aggregated &&
    ((selection.unsplit (slotTables .standard graph)).result db).length <
      (statement.result db).length

theorem repeatedLabelText_repeats : ∃ query compiled selection projections progress,
    Query.parse repeatedLabelText = .ok query ∧ query.compile .standard = .ok compiled ∧
      query.selection .standard = .ok (selection, projections) ∧
      query.progress .standard = .ok progress ∧
      Repeats oneAddress query compiled.statement selection progress.graph = true := by
  have evaluated : ((Query.parse repeatedLabelText).toOption.any fun query =>
      (query.compile .standard).toOption.any fun compiled =>
        (query.selection .standard).toOption.any fun selected =>
          (query.progress .standard).toOption.any fun progress =>
            Repeats oneAddress query compiled.statement selected.1 progress.graph) = true := by
    decide +kernel
  simp only [Option.any_eq_true, toOption_eq_some] at evaluated
  obtain ⟨query, parsed, compiled, compiles, ⟨selection, projections⟩, selected, progress,
    progressed, repeats⟩ := evaluated
  exact ⟨query, compiled, selection, projections, progress, parsed, compiles, selected, progressed,
    repeats⟩

end Compilation

theorem Cypher.Query.result_perm_iff_repeatedLabelText :
    ∃ query compiled selection projections, Query.parse repeatedLabelText = .ok query ∧
      query.compile .standard = .ok compiled ∧
      query.selection .standard = .ok (selection, projections) ∧
      ∃ graph predicates, selection.sources = sourcesOf .standard graph ∧
        selection.condition = filterOf .standard graph predicates ∧
        compiled.statement.page = selection.page ∧
        ((compiled.statement.result oneAddress).Perm
            ((selection.unsplit (slotTables .standard graph)).result oneAddress) ↔
          ∀ rows ∈ oneAddress.assignments (slotTables .standard graph),
            selection.condition.holds (oneAddress.reading.truth rows) = true →
              Unambiguous oneAddress.constant rows .standard graph predicates) := by
  obtain ⟨query, compiled, selection, projections, _, parsed, compiles, selected, _, repeats⟩ :=
    repeatedLabelText_repeats
  simp only [Repeats, Bool.and_eq_true, Bool.not_eq_true'] at repeats
  obtain ⟨⟨plain, unaggregated⟩, _⟩ := repeats
  obtain ⟨graph, predicates, sources, condition, page, results⟩ :=
    Query.result_perm_iff compiles selected plain unaggregated
  exact ⟨query, compiled, selection, projections, parsed, compiles, selected, graph, predicates,
    sources, condition, page, (results oneAddress).2⟩

/-- The one match of that query is returned more than once. -/
theorem Cypher.Query.not_result_perm_repeatedLabelText :
    ∃ query compiled selection projections progress,
      Query.parse repeatedLabelText = .ok query ∧ query.compile .standard = .ok compiled ∧
        query.selection .standard = .ok (selection, projections) ∧
        query.progress .standard = .ok progress ∧
        query.returnClause.distinct = false ∧ selection.aggregated = false ∧
        ¬ (compiled.statement.result oneAddress).Perm
          ((selection.unsplit (slotTables .standard progress.graph)).result oneAddress) := by
  obtain ⟨query, compiled, selection, projections, progress, parsed, compiles, selected, progressed,
    repeats⟩ := repeatedLabelText_repeats
  simp only [Repeats, Bool.and_eq_true, Bool.not_eq_true', decide_eq_true_eq] at repeats
  obtain ⟨⟨plain, unaggregated⟩, more⟩ := repeats
  refine ⟨query, compiled, selection, projections, progress, parsed, compiles, selected, progressed,
    plain, unaggregated, fun same => ?_⟩
  have := same.length_eq
  omega

end CypherSql
