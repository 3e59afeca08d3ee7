import CypherSql.Proofs.Compilation.Correlations
import CypherSql.Proofs.Compilation.Embeddings

/-! # Closed statements

A statement is written while its graph still grows: predicates refer to slots before the last of
them is added, names that `WITH` gives are kept and used again, and each sub-select numbers slots of
its own.  Nevertheless every row that is referred to is declared where it is read.

* `Branch.aliases`, `Branch.rows` — the rows that a `SELECT` declares, and those it refers to.
* `Subselect.Closed`, `Branch.Closed` — all that is referred to is declared.
* `subselect_closed` — the sub-select of a pattern is closed.
* `Query.compile_closed` — so is the whole statement.
-/

namespace CypherSql

open CypherSql.Cypher
open CypherSql.Graph (Slot SlotKind)

/-! ## Rows -/

namespace Sql

/-- A sub-select says `aw0` where a slot of the query is `a0`. -/
theorem inner_text_ne_outer_text (first second : Slot) :
    (Alias.inner first).text ≠ (Alias.outer second).text := by
  intro same
  obtain ⟨kind, index⟩ := first
  obtain ⟨otherKind, otherIndex⟩ := second
  have texts := congrArg String.toList same
  have isDigit : 'w' ∈ Nat.toDigits 10 otherIndex := by
    cases kind <;> cases otherKind <;> simp [Alias.text, letter] at texts
    all_goals exact texts ▸ List.mem_cons_self
  exact absurd (Nat.isDigit_of_mem_toDigits (by decide) (by decide) isDigit) (by decide)

/-- The name that an entry of `FROM` gives to a row. -/
def Source.alias? {σ : Type} : Source σ → Option Alias
  | .table _ row => row
  | .nested _ name => some (.named name)

def Test.rows : Test → List Alias
  | .hasType row _ => [row]
  | .sameId left right => [left, right]
  | .runsFrom relation node | .runsTo relation node => [relation, node]

/-- The row that a lexeme refers to, sub-selects apart. -/
def Lexeme.rows : Lexeme → List Alias
  | .field row _ => [row]
  | _ => []

/-- No text that is left for the database to make sense of. -/
def Lexeme.isResolved : Lexeme → Bool
  | .word _ | .given _ => false
  | _ => true

namespace Subselect

variable (sub : Subselect)

def aliases : List Alias :=
  sub.sources.map Prod.snd

def rows : List Alias :=
  sub.condition.leaves.flatMap Test.rows

/-- Next to rows of the names `outer`, all rows that a sub-select refers to are there, and the names
that it gives are new. -/
structure Closed (outer : List Alias) : Prop where
  distinct : (sub.aliases.map Alias.text).Nodup
  apart : ∀ row ∈ sub.aliases, ∀ other ∈ outer, row.text ≠ other.text
  rows : ∀ row ∈ sub.rows, row ∈ sub.aliases ∨ row ∈ outer

end Subselect

namespace Branch

variable (branch : Branch Statement)

def aliases : List Alias :=
  branch.sources.filterMap Source.alias?

/-- The rows that the filter, the columns and the keys refer to, sub-selects apart. -/
def rows : List Alias :=
  (branch.condition.leaves.flatMap Leaf.tests).flatMap Test.rows ++
    branch.lexemes.flatMap Lexeme.rows

/-- The rows that a `SELECT` declares are those of the slots of a graph, under names of their own,
and all rows that it refers to are declared.  So are those of its sub-selects. -/
structure Closed (graph : Graph) : Prop where
  named : ∀ source ∈ branch.sources, source.alias?.isSome = true
  joins : branch.joins = []
  names : branch.aliases.map Alias.text =
    (List.range graph.nodes.length).map (fun index => "a" ++ toString index) ++
      (List.range graph.relations.length).map fun index => "r" ++ toString index
  distinct : (branch.aliases.map Alias.text).Nodup
  rows : ∀ row ∈ branch.rows, row ∈ branch.aliases
  resolved : ∀ lexeme ∈ branch.lexemes, lexeme.isResolved = true
  subselects : ∀ sub, .existing sub ∈ branch.lexemes → sub.Closed branch.aliases

end Branch

end Sql

namespace Compilation

open CypherSql.Sql (Alias Branch Lexeme Statement Test)

/-! ## Sub-selects -/

theorem nodup_slotTexts (graph : Graph) {row : Slot → Alias}
    (injective : ∀ {first second}, (row first).text = (row second).text → first = second) :
    ((graph.slots.map row).map Alias.text).Nodup := by
  rw [List.map_map]
  exact (Graph.nodup_slots graph).map fun _ _ same => injective same

/-- Numbered slots are declared one by one. -/
theorem map_ids_eq {graph : Graph} (numbered : graph.Numbered) (row : Slot → Alias) :
    graph.nodes.map (fun node => row ⟨.node, node.id⟩) ++
        graph.relations.map (fun relation => row ⟨.relation, relation.id⟩) =
      graph.slots.map row := by
  rw [Graph.slots, ← numbered.nodes, ← numbered.relations]
  simp [Function.comp_def]

theorem aliases_subselect (settings : Settings) {embedding : Embedding}
    (numbered : embedding.graph.Numbered) :
    (embedding.subselect settings).aliases = embedding.graph.slots.map .inner := by
  rw [← map_ids_eq numbered]
  simp [Sql.Subselect.aliases, Embedding.subselect, Function.comp_def, innerNode, innerRelation]

theorem node_mem_slots {graph : Graph} (numbered : graph.Numbered) {node : Graph.Node}
    (isNode : node ∈ graph.nodes) : ⟨.node, node.id⟩ ∈ graph.slots := by
  have isNumber : node.id ∈ List.range graph.nodes.length :=
    numbered.nodes ▸ List.mem_map_of_mem isNode
  exact Graph.mem_slots.mpr (List.mem_range.mp isNumber)

theorem relation_mem_slots {graph : Graph} (numbered : graph.Numbered) {relation : Graph.Relation}
    (isRelation : relation ∈ graph.relations) : ⟨.relation, relation.id⟩ ∈ graph.slots := by
  have isNumber : relation.id ∈ List.range graph.relations.length :=
    numbered.relations ▸ List.mem_map_of_mem isRelation
  exact Graph.mem_slots.mpr (List.mem_range.mp isNumber)

/-- The tests of labels and of ends refer to the slots of their graph. -/
theorem slot_of_mem_shape {graph : Graph} (wellFormed : graph.WellFormed) (row : Slot → Alias)
    {direction : Graph.Relation → Graph.Direction} {test : Test}
    (isOne : (∃ node ∈ graph.nodes, ∃ label ∈ node.labels,
        test = .hasType (row ⟨.node, node.id⟩) label) ∨
      ∃ relation ∈ graph.relations,
        (∃ label ∈ relation.labels, test = .hasType (row ⟨.relation, relation.id⟩) label) ∨
        test ∈ (endCondition (row ⟨.relation, relation.id⟩) (row ⟨.node, relation.left⟩)
          (row ⟨.node, relation.right⟩) (direction relation)).leaves) :
    ∀ used ∈ test.rows, used ∈ graph.slots.map row := by
  have numbered := wellFormed.numbered
  rcases isOne with ⟨node, isNode, label, _, rfl⟩ |
    ⟨relation, isRelation, ⟨label, _, rfl⟩ | isEnd⟩
  · exact List.forall_mem_singleton.mpr (List.mem_map_of_mem (node_mem_slots numbered isNode))
  · exact List.forall_mem_singleton.mpr
      (List.mem_map_of_mem (relation_mem_slots numbered isRelation))
  · have isRow : row ⟨.relation, relation.id⟩ ∈ graph.slots.map row :=
      List.mem_map_of_mem (relation_mem_slots numbered isRelation)
    obtain ⟨left, right⟩ := wellFormed.ends relation isRelation
    obtain ⟨node, isEnd, runs⟩ := mem_leaves_endCondition isEnd
    have isNode : node ∈ graph.slots.map row := by
      rcases isEnd with rfl | rfl
      · exact List.mem_map_of_mem (Graph.mem_slots.mpr left)
      · exact List.mem_map_of_mem (Graph.mem_slots.mpr right)
    have both : ∀ used ∈ [row ⟨.relation, relation.id⟩, node], used ∈ graph.slots.map row :=
      List.forall_mem_cons.mpr ⟨isRow, List.forall_mem_singleton.mpr isNode⟩
    rcases runs with rfl | rfl
    · exact both
    · exact both

/-- The sub-select of a pattern refers to its own rows, and to those of names that are bound
outside. -/
theorem subselect_closed {settings : Settings} {outer later : Graph} (wellFormed : outer.WellFormed)
    (sub : outer.slots ⊆ later.slots) {pattern : Pattern} {embedding : Embedding}
    (isEmbedding : embeds outer pattern = some embedding) :
    (embedding.subselect settings).Closed (later.slots.map .outer) := by
  obtain ⟨_, _, _, tied⟩ := embeds_tied isEmbedding
  have aliases := aliases_subselect settings tied.wellFormed.numbered
  constructor
  case distinct =>
    rw [aliases]
    exact nodup_slotTexts _ Sql.inner_text_injective
  case apart =>
    rw [aliases]
    intro row isRow other isOther
    obtain ⟨slot, _, rfl⟩ := List.mem_map.mp isRow
    obtain ⟨found, _, rfl⟩ := List.mem_map.mp isOther
    exact Sql.inner_text_ne_outer_text slot found
  case rows =>
    rw [aliases]
    intro row isRow
    obtain ⟨test, isTest, isRow⟩ := List.mem_flatMap.mp isRow
    rcases mem_leaves_subselect.mp isTest with isTie | isShape
    · obtain ⟨name, slot, found, inner, bound, rfl⟩ :=
        (embeds_ties wellFormed isEmbedding test).mp isTie
      have there := Graph.mem_slots.mpr (tied.wellFormed.index_lt inner)
      have outside := sub (Graph.mem_slots.mpr (wellFormed.index_lt bound))
      rcases List.mem_pair.mp isRow with rfl | rfl
      · exact .inl (List.mem_map_of_mem there)
      · exact .inr (List.mem_map_of_mem outside)
    · exact .inl (slot_of_mem_shape tied.wellFormed .inner isShape row isRow)

/-! ## Branches -/

/-- What a lexeme refers to is declared next to the rows of a graph. -/
def Declared (graph : Graph) : Lexeme → Prop
  | .field row _ => row ∈ graph.slots.map .outer
  | .existing sub => sub.Closed (graph.slots.map .outer)
  | lexeme => lexeme.isResolved = true

theorem declared_ofRows (graph : Graph) : OfRows (Declared graph) where
  fixed lexeme isFixed := by cases lexeme <;> first | rfl | contradiction
  column _ _ _ _ declared := declared

/-- A name that is known where it stands is a row, or was given to something. -/
theorem Sound.not_word {settings : Settings} {P : Compiled → Prop} {known : Names}
    {progress : Progress} (sound : Sound settings P known progress) {name : String}
    (resolves : known.resolves (.name name []) = true)
    (unbound : progress.graph.slot? name = none) : progress.bindings.find? name ≠ none := by
  intro unnamed
  have bound := sound.bound name
  have given := sound.given name
  simp_all [Names.resolves]

theorem aliases_slotTables {settings : Settings} {graph : Graph} (numbered : graph.Numbered) :
    (slotTables settings graph).filterMap Sql.Source.alias? = graph.slots.map .outer := by
  rw [← map_ids_eq numbered]
  simp [slotTables, List.filterMap_append, List.filterMap_map, Function.comp_def,
    Sql.Source.alias?, nodeRow, relationRow]

section

variable {settings : Settings} {query : Query} {final : Draft}
  (run : Run (.start settings) query.events final) (resolves : query.resolves = true)
  {branch : Branch Statement} (places : Places settings final branch)

include run resolves places

/-- Every lexeme of a branch was written where what it refers to was there, and what is there
stays. -/
theorem Run.declared : ∀ lexeme ∈ branch.lexemes, Declared final.progress.graph lexeme := by
  apply run.forall_lexemes places (declared_ofRows _)
  intro stage isStage draft sound within
  constructor
  case slot =>
    intro name slot bound
    have there := Graph.mem_slots.mpr (sound.wellFormed.index_lt bound)
    exact List.mem_map_of_mem (within.graph.slots there)
  case word =>
    intro name isOne unbound unnamed
    have ofStage := List.all_eq_true.mp (List.all_eq_true.mp resolves stage isStage) _ isOne
    exact absurd unnamed (sound.not_word ofStage unbound)
  case path => exact fun _ _ _ _ _ declared => declared
  case text => exact fun _ _ => ⟨rfl, fun _ => rfl⟩
  case test =>
    intro pattern embedding isOne isEmbedding
    exact subselect_closed sound.wellFormed within.graph.slots isEmbedding

theorem Run.closed (wellFormed : final.progress.graph.WellFormed) :
    branch.Closed final.progress.graph := by
  have declared := run.declared resolves places
  have aliases : branch.aliases = final.progress.graph.slots.map .outer := by
    rw [Branch.aliases, places.sources, aliases_slotTables wellFormed.numbered]
  constructor
  case named =>
    intro source isSource
    rw [places.sources] at isSource
    rcases List.mem_append.mp isSource with isNode | isRelation
    · obtain ⟨node, _, rfl⟩ := List.mem_map.mp isNode
      rfl
    · obtain ⟨relation, _, rfl⟩ := List.mem_map.mp isRelation
      rfl
  case joins => exact places.joins
  case names =>
    rw [aliases, Graph.slots]
    simp [Alias.text, Sql.letter, Function.comp_def]
  case distinct =>
    rw [aliases]
    exact nodup_slotTexts _ Sql.outer_text_injective
  case rows =>
    rw [aliases]
    intro row isRow
    rcases List.mem_append.mp isRow with inFilter | inLexeme
    · obtain ⟨test, isTest, isRow⟩ := List.mem_flatMap.mp inFilter
      obtain ⟨leaf, isLeaf, isTest⟩ := List.mem_flatMap.mp isTest
      cases leaf with
      | shape =>
        obtain rfl := List.mem_singleton.mp isTest
        have isShape := (mem_shapeTests _ _ _).mp (places.tests test isLeaf)
        exact slot_of_mem_shape wellFormed .outer isShape row isRow
      | predicate | never => contradiction
    · obtain ⟨lexeme, isLexeme, isRow⟩ := List.mem_flatMap.mp inLexeme
      cases lexeme with
      | field =>
        obtain rfl := List.mem_singleton.mp isRow
        exact declared _ isLexeme
      | _ => contradiction
  case resolved =>
    intro lexeme isLexeme
    have isDeclared := declared lexeme isLexeme
    cases lexeme <;> first | rfl | exact isDeclared
  case subselects =>
    rw [aliases]
    exact fun sub isSub => declared _ isSub

end

end Compilation

open Compilation

/-- If every bare name of an accepted query is bound or given where it stands, its statement is
closed: each `SELECT` declares one row for each slot of the query graph, and all that it refers to,
or that its sub-selects refer to. -/
theorem Cypher.Query.compile_closed {settings : Settings} {query : Query}
    {compiled : CompiledQuery} (compiles : query.compile settings = .ok compiled)
    (resolves : query.resolves = true) : ∃ progress, query.progress settings = .ok progress ∧
      ∀ branch ∈ compiled.statement.branches, branch.Closed progress.graph := by
  obtain ⟨progress, final, progressed, same, _, run, places⟩ := Query.compile_places compiles
  refine ⟨progress, progressed, fun branch isBranch => ?_⟩
  have wellFormed := (progress_wellFormed progressed).of_unscoped same
  have closed := run.closed resolves (places branch isBranch) wellFormed
  have names := closed.names
  rw [Graph.length_nodes_eq_of_unscoped same, Graph.length_relations_eq_of_unscoped same] at names
  exact { closed with names }

/-- Predicates between patterns, a name for a node that is used again, and two tests with slots of
their own. -/
def severalText : String :=
  "MATCH (a:ip)-[r]->(b) WHERE a.value = 'x' OR (a)-->(c) MATCH (b)--(c) " ++
    "WITH a AS m, COUNT(c) AS n WHERE m.value STARTS WITH '1' AND (b)<--(:host) " ++
    "RETURN m, n, r"

theorem Cypher.Query.compile_closed_severalText : ∃ query compiled,
    Query.parse severalText = .ok query ∧ query.compile .standard = .ok compiled ∧
      query.resolves = true ∧ ∃ progress, query.progress .standard = .ok progress ∧
        ∀ branch ∈ compiled.statement.branches, branch.Closed progress.graph := by
  have evaluated : ((Query.parse severalText).toOption.any fun query =>
      (query.compile .standard).toOption.isSome && query.resolves) = true := by
    decide +kernel
  rw [Option.any_eq_true] at evaluated
  obtain ⟨query, parsed, evaluated⟩ := evaluated
  obtain ⟨succeeds, resolves⟩ := Bool.and_eq_true_iff.mp evaluated
  obtain ⟨compiled, compiles⟩ := Option.isSome_iff_exists.mp succeeds
  rw [toOption_eq_some] at parsed compiles
  exact ⟨query, compiled, parsed, compiles, resolves, query.compile_closed compiles resolves⟩

end CypherSql
