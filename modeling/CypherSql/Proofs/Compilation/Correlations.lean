import CypherSql.Proofs.Compilation.Places
import CypherSql.Proofs.Compilation.Ties

/-! # Which rows of a sub-select are tied to outer rows

The pattern of a test has a graph of its own.  A slot of it is tied to an outer slot when the graph
outside binds its name to that slot.  Names that `WITH` gives are in no graph, so a slot that has
such a name is not tied, whatever the name denotes in an expression.

* `Covers` — the names of a graph are those of some mentions.
* `embeds_ties` — the ties of a pattern are the names that its graph has in common with the outer
  one.
* `mem_leaves_subselect` — what a sub-select tests.
* `Progress.Denotes` — what a name means in an expression.
* `Query.ties_iff` — a slot is tied to what its name denotes exactly when a `MATCH` binds the name.
-/

namespace CypherSql

open CypherSql.Cypher
open CypherSql.Graph (BindingError Direction Scope Slot properName)
open CypherSql.Sql (Alias Branch Statement Test)

namespace Compilation

/-! ## Names and mentions -/

/-- The names are those of the mentions, and mean their slots. -/
def Covers (mentions : List Mention) (graph : Graph) : Prop :=
  ∀ given found, graph.slot? given = some found ↔
    ∃ mention ∈ mentions, properName mention.name = some given ∧ found = mention.slot

theorem covers_empty : Covers [] .empty := by
  simp [Covers, Graph.slot?, Graph.empty]

namespace Covers

variable {mentions others : List Mention} {graph after : Graph} {name : Option String}
  {labels : List String} {scope : Scope}

theorem of_mem_iff (covers : Covers mentions graph)
    (same : ∀ mention, mention ∈ mentions ↔ mention ∈ others) : Covers others graph :=
  fun given found => (covers given found).trans (by simp only [same])

theorem mentionNode {index : Nat} (covers : Covers mentions graph)
    (mentioned : graph.mentionNode labels name scope = .ok (index, after)) :
    Covers (⟨name, ⟨.node, index⟩⟩ :: mentions) after := by
  intro given found
  rw [Graph.slot?_of_mentionNode mentioned, covers given found, List.exists_mem_cons_iff, or_comm]

theorem mentionRelation {left right index : Nat} {direction : Direction}
    (covers : Covers mentions graph)
    (mentioned : graph.mentionRelation labels name left right direction scope =
      .ok (index, after)) : Covers (⟨name, ⟨.relation, index⟩⟩ :: mentions) after := by
  intro given found
  rw [Graph.slot?_of_mentionRelation mentioned, covers given found, List.exists_mem_cons_iff,
    or_comm]

/-- The hops that leave a node bring their names.  That of the node is there. -/
theorem placeHops {source : NodePattern} {left : Nat} {hops : List Hop}
    {placements : List Placement} (covers : Covers mentions graph)
    (known : ⟨source.name, ⟨.node, left⟩⟩ ∈ mentions)
    (placed : placeHops graph source left hops = .ok (placements, after)) :
    Covers (mentions ++ placements.flatMap Placement.mentions) after := by
  induction hops generalizing graph mentions source left placements with
  | nil =>
    obtain ⟨rfl, rfl⟩ := Prod.mk.inj (Except.ok.inj placed)
    exact covers.of_mem_iff (by simp)
  | cons hop rest ih =>
    obtain ⟨⟨right, withNode⟩, nodeMentioned, placed⟩ := bind_eq_ok.mp placed
    obtain ⟨⟨relation, withRelation⟩, relationMentioned, placed⟩ := bind_eq_ok.mp placed
    obtain ⟨⟨later, last⟩, placedRest, result⟩ := bind_eq_ok.mp placed
    obtain ⟨rfl, rfl⟩ := Prod.mk.inj (pure_eq_ok.mp result)
    have coversBoth := (covers.mentionNode nodeMentioned).mentionRelation relationMentioned
    have coversAll := ih coversBoth (by simp) placedRest
    apply coversAll.of_mem_iff
    intro mention
    simp only [List.mem_append, List.mem_cons, List.flatMap_cons, Placement.mentions,
      List.not_mem_nil, or_false]
    constructor
    · tauto
    · rintro (early | ((rfl | rfl | rfl) | late)) <;> tauto

end Covers

/-! ## Ties -/

/-- The pattern of a test is placed in a graph of its own, and is tied by its mentions. -/
theorem embeds_tied {outer : Graph} {pattern : Pattern} {embedding : Embedding}
    (isEmbedding : embeds outer pattern = some embedding) : ∃ mentions,
      bindPattern .empty pattern = .ok embedding.graph ∧ Covers mentions embedding.graph ∧
        Tied outer mentions embedding := by
  have yields : Yields outer
      (fun embedding => ∃ mentions, bindPattern .empty pattern = .ok embedding.graph ∧
        Covers mentions embedding.graph ∧ Tied outer mentions embedding)
      (Embedding.ofPattern (.test 0) pattern) := by
    apply yields_bind (Embedding.addNode_yields (.empty outer) (.test 0) pattern.node)
    rintro ⟨start, first⟩ ⟨mentioned, tied⟩
    refine (Embedding.addHops_yields tied (.test 0) List.mem_cons_self pattern.hops).weaken ?_
    rintro embedding ⟨placements, placed, tiedAfter, -⟩
    have covers := (covers_empty.mentionNode mentioned).placeHops List.mem_cons_self placed
    have isPlaced : placePattern .empty pattern = .ok (placements, embedding.graph) :=
      bind_eq_ok.mpr ⟨(start, first.graph), mentioned, placed⟩
    exact ⟨_, by rw [bindPattern_eq, isPlaced]; rfl, covers, tiedAfter⟩
  exact (yields ⟨outer, 0⟩ rfl).2 embedding (toOption_eq_some.mp isEmbedding)

/-- The ties are the names that are bound in the pattern and outside. -/
theorem embeds_ties {outer : Graph} (wellFormed : outer.WellFormed) {pattern : Pattern}
    {embedding : Embedding} (isEmbedding : embeds outer pattern = some embedding) (test : Test) :
    test ∈ embedding.ties ↔ ∃ name slot found, embedding.graph.slot? name = some slot ∧
      outer.slot? name = some found ∧ test = .sameId (.inner slot) (.outer found) := by
  obtain ⟨mentions, _, covers, tied⟩ := embeds_tied isEmbedding
  rw [tied.ties]
  constructor
  · rintro ⟨mention, isMention, found, isFound, rfl⟩
    obtain ⟨name, isName, bound⟩ := Option.bind_eq_some_iff.mp isFound
    have proper : properName mention.name = some name := by
      have visible := (wellFormed.named _ (Graph.slot?_eq_some bound)).1
      simpa [properName, isName] using visible
    exact ⟨name, mention.slot, found, (covers name _).mpr ⟨mention, isMention, proper, rfl⟩, bound,
      rfl⟩
  · rintro ⟨name, slot, found, inner, bound, rfl⟩
    obtain ⟨mention, isMention, proper, rfl⟩ := (covers name slot).mp inner
    have isFound : mention.outer? outer = some found := by
      rw [Mention.outer?, eq_of_properName proper, Option.bind_some, bound]
    exact ⟨mention, isMention, found, isFound, rfl⟩

/-! ## Conditions -/

/-- A sub-select tests the ties, the labels of its slots, and that its relations run between their
nodes. -/
theorem mem_leaves_subselect {settings : Settings} {embedding : Embedding} {test : Test} :
    test ∈ (embedding.subselect settings).condition.leaves ↔ test ∈ embedding.ties ∨
      (∃ node ∈ embedding.graph.nodes, ∃ label ∈ node.labels,
        test = .hasType (innerNode node.id) label) ∨
      ∃ relation ∈ embedding.graph.relations,
        (∃ label ∈ relation.labels, test = .hasType (innerRelation relation.id) label) ∨
        test ∈ (endCondition (innerRelation relation.id) (innerNode relation.left)
          (innerNode relation.right) relation.direction).leaves := by
  rw [Embedding.subselect, Condition.leaves_flatten, Embedding.condition, Condition.leaves_all,
    List.flatMap_append, List.flatMap_append, List.flatMap_map, List.flatMap_assoc,
    List.flatMap_assoc]
  simp only [List.flatMap_append, List.mem_append, List.mem_flatMap (l := embedding.graph.nodes),
    List.mem_flatMap (l := embedding.graph.relations), mem_leaves_labelCondition,
    Condition.leaves_leaf, List.flatMap_singleton, or_assoc]
  simp

theorem sameId_mem_leaves_subselect {settings : Settings} {embedding : Embedding}
    {left right : Alias} :
    .sameId left right ∈ (embedding.subselect settings).condition.leaves ↔
      .sameId left right ∈ embedding.ties := by
  rw [mem_leaves_subselect]
  constructor
  · rintro (isTie | ⟨_, _, _, _, isType⟩ | ⟨_, _, ⟨_, _, isType⟩ | isEnd⟩)
    · exact isTie
    · contradiction
    · contradiction
    · obtain ⟨_, _, runs | runs⟩ := mem_leaves_endCondition isEnd <;> contradiction
  · exact .inl

/-! ## What names denote -/

/-- The expression that is a name and nothing else. -/
def bareName (name : String) : Expression :=
  ⟨[⟨[⟨[⟨false, ⟨⟨⟨[⟨false, ⟨.name name, []⟩, []⟩]⟩, []⟩, []⟩, []⟩]⟩]⟩]⟩

/-- In an expression the name means the whole slot. -/
def Progress.Denotes (progress : Progress) (name : String) (slot : Slot) : Prop :=
  ∃ next, progress.compile (bareName name) = .ok (.ofSlot slot, next)

theorem run_bareName (bindings : Bindings) (name : String) (state : CompilerState) :
    (compile bindings (bareName name)).run.run state =
      (compileName bindings name []).run.run state := by
  simp [bareName, compile, compileExclusion, compileConjunction, compileComparison,
    compileAddition, compileMultiplication, compilePower, compileSigned, compileTerm,
    compileMultiplied, compileAdded, compileCompared, applyTests]

/-- A slot of the graph, else what was given the name, else a column of that name. -/
theorem Progress.compile_bareName (progress : Progress) (name : String) :
    progress.compile (bareName name) =
      .ok (match progress.graph.slot? name with
        | some slot => .ofSlot slot
        | none => (progress.bindings.find? name).getD (.scalar [.word name]), progress) := by
  have ran : (compileName progress.bindings name []).run.run
      ⟨progress.graph, progress.nextPattern⟩ =
        (.ok (match progress.graph.slot? name with
          | some slot => .ofSlot slot
          | none => (progress.bindings.find? name).getD (.scalar [.word name])),
          ⟨progress.graph, progress.nextPattern⟩) := by
    rw [compileName, run_bind]
    change StateT.run (ExceptT.run (match progress.graph.slot? name with | _ => _)) _ = _
    cases progress.graph.slot? name with
    | some slot => rfl
    | none => cases progress.bindings.find? name <;> rfl
  rw [Progress.compile, run_bareName, ran]

theorem ofSlot_inj {first second : Slot} :
    Compiled.ofSlot first = .ofSlot second ↔ first = second :=
  ⟨fun same => Option.some.inj (congrArg Compiled.slot same), congrArg Compiled.ofSlot⟩

/-- A slot that a name denotes is the one that it is bound to, or else was given to. -/
theorem Progress.denotes_iff {progress : Progress} {name : String} {slot : Slot} :
    progress.Denotes name slot ↔ progress.graph.slot? name = some slot ∨
      progress.graph.slot? name = none ∧ progress.bindings.find? name = some (.ofSlot slot) := by
  have scalar : ¬Compiled.scalar [.word name] = .ofSlot slot := by
    intro same
    nomatch congrArg Compiled.slot same
  rw [Progress.Denotes, Progress.compile_bareName]
  cases progress.graph.slot? name with
  | some found => simp [ofSlot_inj]
  | none => cases progress.bindings.find? name <;> simp [scalar]

end Compilation

open Compilation

/-! ## Whole queries -/

/-- The test for a pattern in a predicate or in an item of `RETURN` is in every `SELECT`.  Where it
stands, its pattern is put into a graph of its own.  A slot there whose name denotes an outer slot
is tied to that slot, and to no other, if a pattern of a `MATCH` binds the name, and to none if
`WITH` gave it. -/
theorem Cypher.Query.ties_iff {settings : Settings} {query : Query} {compiled : CompiledQuery}
    (compiles : query.compile settings = .ok compiled) {stage : Stage}
    (isStage : stage ∈ query.stages) (isShown : stage.event.isShown = true) {pattern : Pattern}
    (isOne : .pattern pattern ∈ stage.event.ingredients) :
    ∃ draft embedding, Run (.start settings) stage.earlier draft ∧
      embeds draft.progress.graph pattern = some embedding ∧
      bindPattern .empty pattern = .ok embedding.graph ∧
      (∀ branch ∈ compiled.statement.branches,
        .existing (embedding.subselect settings) ∈ branch.lexemes) ∧
      ∀ name slot found, embedding.graph.slot? name = some slot →
        draft.progress.Denotes name found → ∀ other,
          (.sameId (.inner slot) (.outer other) ∈ (embedding.subselect settings).condition.leaves ↔
            name ∈ stage.known.bound ∧ other = found) := by
  obtain ⟨_, final, _, _, _, run, places⟩ := Query.compile_places compiles
  obtain ⟨draft, embedding, reached, sound, isEmbedding, shown⟩ :=
    run.exists_lexeme isStage isShown isOne
  obtain ⟨_, placed, _, tied⟩ := embeds_tied isEmbedding
  refine ⟨draft, embedding, reached, isEmbedding, placed,
    fun branch isBranch => shown branch (places branch isBranch), ?_⟩
  intro name slot found inner denotes other
  rw [sameId_mem_leaves_subselect, embeds_ties sound.wellFormed isEmbedding, sound.bound]
  constructor
  · rintro ⟨again, _, last, isAgain, bound, same⟩
    obtain ⟨⟨rfl⟩, ⟨rfl⟩⟩ := Test.sameId.inj same
    obtain rfl := tied.wellFormed.eq_of_slot? inner isAgain
    rcases Progress.denotes_iff.mp denotes with isFound | ⟨unbound, -⟩
    · rw [bound] at isFound
      exact ⟨Option.isSome_iff_exists.mpr ⟨_, bound⟩, Option.some.inj isFound⟩
    · nomatch unbound.symm.trans bound
  · rintro ⟨bound, rfl⟩
    rcases Progress.denotes_iff.mp denotes with isFound | ⟨unbound, -⟩
    · exact ⟨name, slot, other, inner, isFound, rfl⟩
    · rw [unbound] at bound
      contradiction

/-! ## A name of its own for a node -/

namespace Compilation

/-- Every slot of a pattern whose name was given to a slot of that kind is tied to it. -/
def TiesGivenNames (settings : Settings) (query : Query) : Prop :=
  ∀ stage ∈ query.stages, stage.event.isShown = true → ∀ pattern,
    .pattern pattern ∈ stage.event.ingredients → ∀ draft embedding,
      Run (.start settings) stage.earlier draft →
      embeds draft.progress.graph pattern = some embedding →
      ∀ name ∈ stage.known.given, name ∉ stage.known.bound → ∀ slot found,
        embedding.graph.slot? name = some slot → draft.progress.Denotes name found →
          slot.kind = found.kind →
            .sameId (.inner slot) (.outer found) ∈ (embedding.subselect settings).condition.leaves

/-- `(a)-[r]->(b)` -/
def boundPattern : Pattern :=
  ⟨⟨some "a", []⟩, [⟨⟨some "r", [], false, true⟩, ⟨some "b", []⟩⟩]⟩

/-- `(m)-->(:ip)` -/
def renamedPattern : Pattern :=
  ⟨⟨some "m", []⟩, [⟨⟨none, [], false, true⟩, ⟨none, ["ip"]⟩⟩]⟩

def renamedTest : Expression :=
  ⟨[⟨[⟨[⟨false, ⟨⟨⟨[⟨false, ⟨.pattern renamedPattern, []⟩, []⟩]⟩, []⟩, []⟩, []⟩]⟩]⟩]⟩

/-- `MATCH (a)-[r]->(b) WITH a AS m WHERE (m)-->(:ip) RETURN m` -/
def renamedQuery : Query where
  matchClauses := [⟨[boundPattern], none⟩]
  withClauses := [⟨[⟨bareName "a", some "m"⟩], some renamedTest⟩]
  returnClause := ⟨false, [⟨bareName "m", none⟩], none, none⟩

def renamedStage : Stage :=
  ⟨[.mention boundPattern, .give ⟨bareName "a", some "m"⟩], .pass renamedTest⟩

theorem renamedStage_mem : renamedStage ∈ renamedQuery.stages :=
  Query.mem_stages.mpr ⟨_, rfl⟩

theorem renamedPattern_mem : .pattern renamedPattern ∈ renamedStage.event.ingredients :=
  List.mem_singleton_self _

/-- The graph of the `MATCH`. -/
def boundGraph : Graph where
  nodes := [⟨0, [], [.clause]⟩, ⟨1, [], [.clause]⟩]
  relations := [⟨0, [], 0, 1, .right, [.clause]⟩]
  bound := [("a", ⟨.node, 0⟩), ("b", ⟨.node, 1⟩), ("r", ⟨.relation, 0⟩)]

def renamedDraft : Draft where
  progress := ⟨boundGraph, 0, (Bindings.mk .standard []).bind "m" (.ofSlot ⟨.node, 0⟩), .empty⟩
  layout := .empty

theorem renamedDraft_reached : Run (.start .standard) renamedStage.earlier renamedDraft := by
  have bound : bindPattern .empty boundPattern = .ok boundGraph := rfl
  exact .cons (.mention bound) (.cons (.give (Progress.compile_bareName _ "a") rfl) (.nil _))

theorem renamedQuery_compiles : ∃ compiled, renamedQuery.compile .standard = .ok compiled := by
  have succeeds : (renamedQuery.compile .standard).toOption.isSome = true := by decide +kernel
  obtain ⟨compiled, isCompiled⟩ := Option.isSome_iff_exists.mp succeeds
  exact ⟨compiled, toOption_eq_some.mp isCompiled⟩

end Compilation

theorem Cypher.Query.ties_iff_renamedQuery : ∃ compiled,
    renamedQuery.compile .standard = .ok compiled ∧ renamedStage ∈ renamedQuery.stages ∧
      renamedStage.event.isShown = true ∧
      .pattern renamedPattern ∈ renamedStage.event.ingredients ∧
      ∃ draft embedding, Run (.start .standard) renamedStage.earlier draft ∧
        embeds draft.progress.graph renamedPattern = some embedding ∧
        ∀ name slot found, embedding.graph.slot? name = some slot →
          draft.progress.Denotes name found → ∀ other,
            (.sameId (.inner slot) (.outer other) ∈
              (embedding.subselect .standard).condition.leaves ↔
                name ∈ renamedStage.known.bound ∧ other = found) := by
  obtain ⟨compiled, compiles⟩ := renamedQuery_compiles
  obtain ⟨draft, embedding, reached, isEmbedding, _, _, ties⟩ :=
    Query.ties_iff compiles renamedStage_mem rfl renamedPattern_mem
  exact ⟨compiled, compiles, renamedStage_mem, rfl, renamedPattern_mem, draft, embedding, reached,
    isEmbedding, ties⟩

/-- That query is accepted, and the node `m` of its pattern is not tied to the node `a`. -/
theorem Cypher.Query.not_tiesGivenNames_renamedQuery :
    (∃ compiled, renamedQuery.compile .standard = .ok compiled) ∧
      ¬TiesGivenNames .standard renamedQuery := by
  refine ⟨renamedQuery_compiles, fun all => ?_⟩
  have untied : (embeds boundGraph renamedPattern).any (fun embedding =>
      embedding.graph.slot? "m" = some ⟨.node, 0⟩ &&
        !((embedding.subselect .standard).condition.leaves.contains
          (.sameId (.inner ⟨.node, 0⟩) (.outer ⟨.node, 0⟩)))) = true := by
    decide +kernel
  obtain ⟨embedding, isEmbedding, untied⟩ := (Option.any_eq_true _ _).mp untied
  simp only [Bool.and_eq_true, decide_eq_true_eq, Bool.not_eq_true', List.contains_eq_mem,
    decide_eq_false_iff_not] at untied
  obtain ⟨inner, untied⟩ := untied
  have denotes : renamedDraft.progress.Denotes "m" ⟨.node, 0⟩ :=
    Progress.denotes_iff.mpr (.inr ⟨rfl, rfl⟩)
  exact untied (all renamedStage renamedStage_mem rfl renamedPattern renamedPattern_mem renamedDraft
    embedding renamedDraft_reached isEmbedding "m" (by decide) (by decide) ⟨.node, 0⟩ ⟨.node, 0⟩
    inner denotes rfl)

end CypherSql
