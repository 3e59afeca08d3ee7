import CypherSql.Proofs.Compilation.Filter
import CypherSql.Proofs.Compilation.Following
import CypherSql.Proofs.Compilation.Gathering
import CypherSql.Proofs.Condition.Leaves
import Mathlib.Logic.Equiv.Basic

/-! # Undirected relations that are matched one way

An undirected relation that is the only one of a query is matched one way where nothing tells its
ends apart.  Whatever rows satisfy the filter that matches it both ways, they satisfy the other one
at once or with the rows of its ends exchanged.

* `Symmetric` — nothing tells the ends of the only relation apart.
* `effectiveDirection_optimizing_true` — only then the optimization changes a direction.
* `exchange` — rows with those of two nodes exchanged.
* `satisfies_oneWay_iff` — the filter that matches one way, for rows and for exchanged rows.
* `Query.selection_optimizing` — the optimization changes nothing but the filter.
* `Query.orientation` — both filters of a query.
-/

namespace CypherSql

open CypherSql.Cypher
open CypherSql.Sql (Alias Column Fragment Leaf Lexeme Record Test)

namespace Compilation

/-! ## Ends that nothing tells apart -/

section

variable {settings : Settings} {graph : Graph} {wheres : List Compiled} {relation : Graph.Relation}

/-- A node has no labels, and no predicate reads it. -/
structure Free (graph : Graph) (wheres : List Compiled) (index : Nat) : Prop where
  unlabelled : graph.labels ⟨.node, index⟩ = []
  unread : ∀ compiled ∈ wheres, ⟨.node, index⟩ ∉ compiled.reads

/-- An undirected relation is the only one, and nothing tells its ends apart. -/
structure Symmetric (graph : Graph) (wheres : List Compiled) (relation : Graph.Relation) :
    Prop where
  only : graph.relations = [relation]
  either : relation.direction = .either
  left : Free graph wheres relation.left
  right : Free graph wheres relation.right

theorem unconstrained_iff {index : Nat} :
    unconstrained graph (gather wheres) index = true ↔ Free graph wheres index := by
  have unread : (gather wheres).readNodes.contains index = false ↔
      ∀ compiled ∈ wheres, ⟨.node, index⟩ ∉ compiled.reads := by
    rw [readNodes_gather, ← Bool.not_eq_true, List.contains_iff_mem, List.mem_flatMap]
    simp only [mem_nodeIndices, not_exists, not_and]
  rw [unconstrained, Bool.and_eq_true, Bool.not_eq_true', List.isEmpty_iff, unread]
  constructor
  · rintro ⟨unlabelled, unread⟩
    exact ⟨unlabelled, unread⟩
  · intro free
    exact ⟨free.unlabelled, free.unread⟩

theorem symmetric_iff : Symmetric graph wheres relation ↔
    graph.relations = [relation] ∧ relation.direction = .either ∧
      Free graph wheres relation.left ∧ Free graph wheres relation.right := by
  constructor
  · rintro ⟨only, either, left, right⟩
    exact ⟨only, either, left, right⟩
  · rintro ⟨only, either, left, right⟩
    exact ⟨only, either, left, right⟩

instance (index : Nat) : Decidable (Free graph wheres index) :=
  decidable_of_iff (unconstrained graph (gather wheres) index = true) unconstrained_iff

instance : Decidable (Symmetric graph wheres relation) :=
  decidable_of_iff
    (graph.relations = [relation] ∧ relation.direction = .either ∧
      Free graph wheres relation.left ∧ Free graph wheres relation.right) symmetric_iff.symm

theorem effectiveDirection_optimizing_true (isOne : relation ∈ graph.relations) :
    effectiveDirection (settings.optimizing true) graph (gather wheres) relation =
      if Symmetric graph wheres relation then .right else relation.direction := by
  have only : graph.relations.length = 1 ↔ graph.relations = [relation] := by
    rw [List.length_eq_one_iff]
    constructor
    · rintro ⟨other, isList⟩
      rw [isList] at isOne
      rw [isList, List.mem_singleton.mp isOne]
    · exact fun isList => ⟨relation, isList⟩
  have fires : (relation.direction == .either && (settings.optimizing true).optimizeEitherDirection
      && graph.relations.length == 1 && unconstrained graph (gather wheres) relation.left
      && unconstrained graph (gather wheres) relation.right) = true ↔
      Symmetric graph wheres relation := by
    simp only [Bool.and_eq_true, beq_iff_eq, only, unconstrained_iff, Settings.optimizing]
    constructor
    · rintro ⟨⟨⟨⟨either, -⟩, isOnly⟩, left⟩, right⟩
      exact ⟨isOnly, either, left, right⟩
    · rintro ⟨isOnly, either, left, right⟩
      exact ⟨⟨⟨⟨either, trivial⟩, isOnly⟩, left⟩, right⟩
  rw [effectiveDirection]
  exact if_congr fires rfl rfl

/-- Where the ends of every relation can be told apart, the optimization changes nothing. -/
theorem filterOf_optimizing_true (none : ∀ relation, ¬Symmetric graph wheres relation) :
    filterOf (settings.optimizing true) graph (gather wheres) =
      filterOf (settings.optimizing false) graph (gather wheres) := by
  have ends : endConditions (settings.optimizing true) graph (gather wheres) =
      endConditions (settings.optimizing false) graph (gather wheres) := by
    refine List.map_congr_left fun relation isOne => ?_
    rw [effectiveDirection_optimizing_true isOne, if_neg (none relation)]
    simp [effectiveDirection, Settings.optimizing]
  rw [filterOf, filterOf, ends]

end

/-! ## Exchanging the rows of two nodes -/

section

variable {V : Type} {rows : Alias → Record V} {left right : Nat}

/-- The rows, those of two nodes exchanged. -/
def exchange (left right : Nat) (rows : Alias → Record V) : Alias → Record V :=
  rows ∘ Equiv.swap (nodeRow left) (nodeRow right)

@[simp] theorem exchange_left : exchange left right rows (nodeRow left) = rows (nodeRow right) :=
  congrArg rows (Equiv.swap_apply_left _ _)

@[simp] theorem exchange_right : exchange left right rows (nodeRow right) = rows (nodeRow left) :=
  congrArg rows (Equiv.swap_apply_right _ _)

theorem exchange_of_ne {row : Alias} (isLeft : row ≠ nodeRow left) (isRight : row ≠ nodeRow right) :
    exchange left right rows row = rows row :=
  congrArg rows (Equiv.swap_apply_of_ne_of_ne isLeft isRight)

@[simp] theorem exchange_relation (index : Nat) :
    exchange left right rows (relationRow index) = rows (relationRow index) :=
  exchange_of_ne (by simp [nodeRow, relationRow]) (by simp [nodeRow, relationRow])

theorem exchange_exchange (left right : Nat) (rows : Alias → Record V) :
    exchange left right (exchange left right rows) = rows := by
  funext row
  exact congrArg rows (Equiv.swap_apply_self _ _ row)

variable [DecidableEq V]

theorem runs_exchange (ends : Ends) :
    ends.runs (exchange left right rows) left right = ends.runs rows right left := by
  simp [Ends.runs]

end

/-! ## The filter for exchanged rows -/

section

variable {V : Type}

/-- Whether a predicate holds depends on the rows of the slots that it reads, and on no other. -/
def ReadsOnly (truth : (Alias → Record V) → Fragment → Bool) (compiled : Compiled) : Prop :=
  ∀ rows others, (∀ slot ∈ compiled.reads, rows (.outer slot) = others (.outer slot)) →
    truth rows compiled.conjunct = truth others compiled.conjunct

/-- The rows satisfy a filter. -/
def Satisfies [DecidableEq V] (constant : String → V)
    (truth : (Alias → Record V) → Fragment → Bool) (rows : Alias → Record V)
    (filter : Condition Leaf) : Prop :=
  filter.holds (Leaf.holds (Test.holds constant rows) (truth rows)) = true

/-- What a filter demands besides the ends of relations. -/
structure Fits [DecidableEq V] (constant : String → V)
    (truth : (Alias → Record V) → Fragment → Bool) (graph : Graph) (wheres : List Compiled)
    (rows : Alias → Record V) : Prop where
  nodes : ∀ node ∈ graph.nodes, typed constant rows (nodeRow node.id) node.labels = true
  relations : ∀ relation ∈ graph.relations,
    typed constant rows (relationRow relation.id) relation.labels = true
  predicates : ∀ compiled ∈ wheres, truth rows compiled.conjunct = true

theorem satisfies_filterOf_iff [DecidableEq V] (constant : String → V) (rows : Alias → Record V)
    (truth : (Alias → Record V) → Fragment → Bool) (settings : Settings) (graph : Graph)
    (wheres : List Compiled) :
    Satisfies constant truth rows (filterOf settings graph (gather wheres)) ↔
      Fits constant truth graph wheres rows ∧ ∀ relation ∈ graph.relations,
        (matchedEnds settings graph (gather wheres) relation).joined rows = true := by
  rw [Satisfies, holds_filterOf, fragments_gather, List.all_map]
  simp only [Bool.and_eq_true, List.all_eq_true, Function.comp_apply]
  constructor
  · rintro ⟨⟨⟨nodes, relations⟩, joined⟩, predicates⟩
    exact ⟨⟨nodes, relations, predicates⟩, joined⟩
  · rintro ⟨⟨nodes, relations, predicates⟩, joined⟩
    exact ⟨⟨⟨nodes, relations⟩, joined⟩, predicates⟩

variable {graph : Graph} {wheres : List Compiled} {relation : Graph.Relation}
  (symmetric : Symmetric graph wheres relation) {truth : (Alias → Record V) → Fragment → Bool}
  (rows : Alias → Record V)

include symmetric

/-- Neither end is read by a predicate. -/
theorem truth_exchange {compiled : Compiled} (isOne : compiled ∈ wheres)
    (readsOnly : ReadsOnly truth compiled) :
    truth (exchange relation.left relation.right rows) compiled.conjunct =
      truth rows compiled.conjunct := by
  apply readsOnly
  intro slot isRead
  have isOther : ∀ index, Free graph wheres index → Alias.outer slot ≠ nodeRow index := by
    rintro index free same
    obtain rfl := Alias.outer.inj same
    exact free.unread compiled isOne isRead
  exact exchange_of_ne (isOther _ symmetric.left) (isOther _ symmetric.right)

variable [DecidableEq V] (constant : String → V)

/-- Neither end has a label to test. -/
theorem typed_exchange (numbered : graph.Numbered) {node : Graph.Node}
    (isNode : node ∈ graph.nodes) :
    typed constant (exchange relation.left relation.right rows) (nodeRow node.id) node.labels =
      typed constant rows (nodeRow node.id) node.labels := by
  have unlabelled : ∀ index, Free graph wheres index → node.id = index → node.labels = [] := by
    rintro _ free rfl
    rw [← numbered.labels_node isNode, free.unlabelled]
  by_cases isEnd : node.id = relation.left ∨ node.id = relation.right
  · rw [isEnd.elim (unlabelled _ symmetric.left) (unlabelled _ symmetric.right)]
    rfl
  · obtain ⟨isLeft, isRight⟩ := not_or.mp isEnd
    rw [typed, typed, exchange_of_ne]
    · simpa [nodeRow] using isLeft
    · simpa [nodeRow] using isRight

theorem Fits.exchange {rows : Alias → Record V} (fits : Fits constant truth graph wheres rows)
    (numbered : graph.Numbered) (readsOnly : ∀ compiled ∈ wheres, ReadsOnly truth compiled) :
    Fits constant truth graph wheres (exchange relation.left relation.right rows) where
  nodes node isNode := by
    rw [typed_exchange symmetric rows constant numbered isNode]
    exact fits.nodes node isNode
  relations other isOne := by
    rw [typed, exchange_relation]
    exact fits.relations other isOne
  predicates compiled isOne := by
    rw [truth_exchange symmetric rows isOne (readsOnly compiled isOne)]
    exact fits.predicates compiled isOne

theorem fits_exchange_iff (numbered : graph.Numbered)
    (readsOnly : ∀ compiled ∈ wheres, ReadsOnly truth compiled) :
    Fits constant truth graph wheres (exchange relation.left relation.right rows) ↔
      Fits constant truth graph wheres rows := by
  constructor
  · intro fits
    rw [← exchange_exchange relation.left relation.right rows]
    exact fits.exchange symmetric constant numbered readsOnly
  · exact fun fits => fits.exchange symmetric constant numbered readsOnly

/-- Rows that satisfy the filter that matches both ways satisfy the one that matches one way, at
once or with the rows of the ends exchanged. -/
theorem satisfies_oneWay_iff (settings : Settings) (numbered : graph.Numbered)
    (readsOnly : ∀ compiled ∈ wheres, ReadsOnly truth compiled) :
    Satisfies constant truth rows (filterOf (settings.optimizing false) graph (gather wheres)) ↔
      Satisfies constant truth rows (filterOf (settings.optimizing true) graph (gather wheres)) ∨
        Satisfies constant truth (exchange relation.left relation.right rows)
          (filterOf (settings.optimizing true) graph (gather wheres)) := by
  have isOne : relation ∈ graph.relations := by simp [symmetric.only]
  have oneWay : ∀ rows : Alias → Record V,
      (matchedEnds (settings.optimizing true) graph (gather wheres) relation).joined rows =
        (endsOf relation).runs rows relation.left relation.right := by
    intro rows
    rw [matchedEnds, effectiveDirection_optimizing_true isOne, if_pos symmetric]
    rfl
  have bothWays :
      (matchedEnds (settings.optimizing false) graph (gather wheres) relation).joined rows =
        ((endsOf relation).runs rows relation.left relation.right ||
          (endsOf relation).runs rows relation.right relation.left) := by
    rw [matchedEnds_eq rfl, Ends.joined, endsOf, symmetric.either]
  -- Exchanged rows run from left to right where the rows themselves run from right to left.
  simp only [satisfies_filterOf_iff, symmetric.only, List.forall_mem_singleton, oneWay, bothWays,
    fits_exchange_iff symmetric rows constant numbered readsOnly, runs_exchange]
  rw [Bool.or_eq_true, and_or_left]

end

end Compilation

open Compilation

/-- The optimization changes nothing but the filter of a query. -/
theorem Cypher.Query.selection_optimizing {settings : Settings} {query : Query}
    {selection : Sql.Selection} {projections : List Projection}
    (selected : query.selection settings = .ok (selection, projections)) :
    ∃ final, Run (.start settings) query.events final ∧ final.progress.graph.Numbered ∧
      ∀ optimize, query.selection (settings.optimizing optimize) =
        .ok ({ selection with
          condition := filterOf (settings.optimizing optimize) final.progress.graph
            final.progress.predicates }, projections) := by
  -- The query is renamed to itself, so the other settings are all that the two runs differ in.
  obtain ⟨progress, final, page, progressed, same, run, -, -⟩ := Query.run_ok selected
  have numbered := (progress_wellFormed progressed).of_unscoped same.symm
  refine ⟨final, run, numbered.numbered, fun optimize => ?_⟩
  have selections := query.selection_rename query.renaming_id settings optimize
  rw [query.rename_id, selected] at selections
  generalize query.selection (settings.optimizing optimize) = result at selections
  cases selections with
  | ok follows =>
    obtain ⟨final', follows⟩ := follows
    obtain rfl := run.unique follows.run
    exact congrArg Except.ok follows.eq_optimizing

/-- A query has a filter without the optimization and one with it.  Where nothing tells the ends of
its only relation apart, rows satisfy the first one if and only if they satisfy the second one at
once or with the rows of the ends exchanged.  Everywhere else the two are the same. -/
theorem Cypher.Query.orientation {settings : Settings} {query : Query} {selection : Sql.Selection}
    {projections : List Projection}
    (selected : query.selection settings = .ok (selection, projections)) :
    ∃ final wheres bothWays oneWay,
      Run (.start settings) query.events final ∧
      List.Forall₂ (Filters settings) query.wheres wheres ∧
      query.selection (settings.optimizing false) =
        .ok ({ selection with condition := bothWays }, projections) ∧
      query.selection (settings.optimizing true) =
        .ok ({ selection with condition := oneWay }, projections) ∧
      (∀ relation, Symmetric final.progress.graph wheres relation →
        ∀ {V : Type} [DecidableEq V] (constant : String → V)
          (truth : (Alias → Record V) → Fragment → Bool),
          (∀ compiled ∈ wheres, ReadsOnly truth compiled) → ∀ rows : Alias → Record V,
            Satisfies constant truth rows bothWays ↔
              Satisfies constant truth rows oneWay ∨
                Satisfies constant truth (exchange relation.left relation.right rows) oneWay) ∧
      ((∀ relation, ¬Symmetric final.progress.graph wheres relation) → oneWay = bothWays) := by
  obtain ⟨final, run, numbered, optimizing⟩ := Query.selection_optimizing selected
  obtain ⟨wheres, filters, gathered⟩ := Query.gathers run
  refine ⟨final, wheres, _, _, run, filters, optimizing false, optimizing true, ?_, ?_⟩
  · intro relation symmetric V _ constant truth readsOnly rows
    rw [gathered]
    exact satisfies_oneWay_iff symmetric rows constant settings numbered readsOnly
  · intro none
    rw [gathered]
    exact filterOf_optimizing_true none

/-- Nothing tells `a` from `b`, although a predicate reads another node. -/
def undirectedText : String :=
  "MATCH (a)-[r]-(b), (c:ip) WHERE c.value = 'x' RETURN a, b, c"

/-- Whether the optimization changes the filter of a query. -/
def Cypher.Query.isOptimized (settings : Settings) (query : Query) : Bool :=
  ((query.selection (settings.optimizing false)).toOption.map (·.1.condition.leaves.length)) !=
    (query.selection (settings.optimizing true)).toOption.map (·.1.condition.leaves.length)

/-- Whether the rows of all slots that are read have the value `x`. -/
def readsX (compiled : Compiled) (rows : Alias → Record String) (_ : Fragment) : Bool :=
  decide (∀ slot ∈ compiled.reads, rows (.outer slot) "value" = some "x")

theorem readsOnly_readsX (compiled : Compiled) : ReadsOnly (readsX compiled) compiled := by
  intro rows others same
  exact decide_eq_decide.mpr (forall₂_congr fun slot isRead => by rw [same slot isRead])

theorem Cypher.Query.orientation_undirectedText :
    ∃ query selection projections bothWays oneWay final compiled relation,
      Query.parse undirectedText = .ok query ∧
      query.selection .standard = .ok (selection, projections) ∧
      query.selection (Settings.standard.optimizing false) =
        .ok ({ selection with condition := bothWays }, projections) ∧
      query.selection (Settings.standard.optimizing true) =
        .ok ({ selection with condition := oneWay }, projections) ∧
      oneWay ≠ bothWays ∧
      Run (.start .standard) query.events final ∧
      List.Forall₂ (Filters .standard) query.wheres [compiled] ∧
      Symmetric final.progress.graph [compiled] relation ∧
      ReadsOnly (readsX compiled) compiled ∧
      ∀ rows : Alias → Record String, Satisfies id (readsX compiled) rows bothWays ↔
        Satisfies id (readsX compiled) rows oneWay ∨
          Satisfies id (readsX compiled) (exchange relation.left relation.right rows) oneWay := by
  have evaluated : ((Query.parse undirectedText).toOption.any fun query =>
      (query.selection .standard).toOption.isSome && query.isOptimized .standard &&
        query.wheres.length == 1) = true := by
    decide +kernel
  rw [Option.any_eq_true] at evaluated
  obtain ⟨query, parsed, evaluated⟩ := evaluated
  simp only [Bool.and_eq_true, beq_iff_eq] at evaluated
  obtain ⟨⟨succeeds, optimized⟩, one⟩ := evaluated
  obtain ⟨⟨selection, projections⟩, selected⟩ := Option.isSome_iff_exists.mp succeeds
  rw [toOption_eq_some] at parsed selected
  obtain ⟨final, wheres, bothWays, oneWay, run, filters, without, optimizing, symmetric,
    unchanged⟩ := Query.orientation selected
  obtain ⟨compiled, rfl⟩ := List.length_eq_one_iff.mp (filters.length_eq.symm.trans one)
  have differ : oneWay ≠ bothWays := by
    rintro rfl
    simp [isOptimized, without, optimizing] at optimized
  -- The filters would be the same if no relation were symmetric.
  have fires : ∃ relation, Symmetric final.progress.graph [compiled] relation := by
    by_contra none
    exact differ (unchanged (not_exists.mp none))
  obtain ⟨relation, isSymmetric⟩ := fires
  have readsOnly := readsOnly_readsX compiled
  exact ⟨query, selection, projections, bothWays, oneWay, final, compiled, relation, parsed,
    selected, without, optimizing, differ, run, filters, isSymmetric, readsOnly,
    symmetric relation isSymmetric id _ (List.forall_mem_singleton.mpr readsOnly)⟩

end CypherSql
