import CypherSql.Proofs.Compilation.Correlations
import CypherSql.Proofs.Graph.Labels

/-! # Labels that are checked

The labels of the query graph have to be known, where only some are.  A pattern inside an expression
has a graph of its own, which is not looked at.  A slot of it that is bound outside has labels of
the outer slot only, so what is not checked are the labels of all its other slots.

* `Settings.knows`, `requireKnownLabels_eq_ok` — the check of a graph.
* `mem_allLabels_of_bindPattern` — a pattern brings its labels, and no others.
* `embeds_conforms` — a slot that is bound outside has labels of the outer slot.
* `Query.labels`, `Query.freeLabels` — all labels of a query, and those that are not checked.
* `Query.labels_known_iff` — what is known of the labels of a query that is accepted.
-/

namespace CypherSql

open CypherSql.Cypher
open CypherSql.Graph (BindingError Direction Scope Slot SlotKind)
open CypherSql.Sql (Alias Branch Lexeme Statement Test)

/-! ## Labels in queries -/

namespace Cypher

/-- The nodes or the relationships of a pattern, with their names and labels. -/
def Pattern.labelled (pattern : Pattern) : SlotKind → List (Option String × List String)
  | .node => pattern.nodes.map fun node => (node.name, node.labels)
  | .relation => pattern.relationships.map fun relation => (relation.name, relation.labels)

def Hop.labels (hop : Hop) : SlotKind → List String
  | .node => hop.node.labels
  | .relation => hop.relationship.labels

def Pattern.labels (pattern : Pattern) (kind : SlotKind) : List String :=
  (pattern.labelled kind).flatMap Prod.snd

/-- The patterns inside an expression. -/
def Event.tests (event : Event) : List Pattern :=
  event.ingredients.filterMap Ingredient.pattern?

def Event.patterns : Event → List Pattern
  | .mention pattern => [pattern]
  | event => event.tests

/-- All labels that are written for nodes, or for relationships. -/
def Query.labels (query : Query) (kind : SlotKind) : List String :=
  query.events.flatMap fun event => event.patterns.flatMap fun pattern => pattern.labels kind

/-- The labels inside expressions of slots that no pattern of a `MATCH` has bound. -/
def Query.freeLabels (query : Query) (kind : SlotKind) : List String :=
  query.stages.flatMap fun stage => stage.event.tests.flatMap fun pattern =>
    ((pattern.labelled kind).filter fun slot =>
      !slot.1.any stage.known.bound.contains).flatMap Prod.snd

theorem mem_tests {event : Event} {pattern : Pattern} :
    pattern ∈ event.tests ↔ .pattern pattern ∈ event.ingredients := by
  simp only [Event.tests, List.mem_filterMap]
  constructor
  · rintro ⟨ingredient, isOne, isPattern⟩
    unfold Ingredient.pattern? at isPattern
    split at isPattern
    · next found =>
      obtain rfl := Option.some.inj isPattern
      exact isOne
    · contradiction
  · exact fun isOne => ⟨_, isOne, rfl⟩

theorem tests_subset_patterns (event : Event) : event.tests ⊆ event.patterns := by
  cases event with
  | mention => exact List.nil_subset _
  | filter | give | pass | list => exact List.Subset.refl _

theorem mem_freeLabels {query : Query} {kind : SlotKind} {label : String} :
    label ∈ query.freeLabels kind ↔ ∃ stage ∈ query.stages, ∃ pattern ∈ stage.event.tests,
      ∃ name labels, (name, labels) ∈ pattern.labelled kind ∧
        (∀ given, name = some given → given ∉ stage.known.bound) ∧ label ∈ labels := by
  have free : ∀ (name : Option String) (bound : List String),
      (!name.any bound.contains) = true ↔ ∀ given, name = some given → given ∉ bound := by
    intro name bound
    cases name <;> simp
  simp only [Query.freeLabels, List.mem_flatMap, List.mem_filter, free, Prod.exists, and_assoc]

theorem freeLabels_subset (query : Query) (kind : SlotKind) :
    query.freeLabels kind ⊆ query.labels kind := by
  intro label isFree
  obtain ⟨stage, isStage, pattern, isTest, name, labels, isOne, _, isLabel⟩ :=
    mem_freeLabels.mp isFree
  have inPattern : label ∈ pattern.labels kind := List.mem_flatMap.mpr ⟨_, isOne, isLabel⟩
  have inEvent : label ∈ stage.event.patterns.flatMap fun pattern => pattern.labels kind :=
    List.mem_flatMap.mpr ⟨pattern, tests_subset_patterns _ isTest, inPattern⟩
  exact List.mem_flatMap.mpr ⟨stage.event, Query.event_mem_of_mem_stages isStage, inEvent⟩

end Cypher

namespace Compilation

/-! ## The check -/

/-- Whether slots of the kind may have the label. -/
def knows (settings : Settings) (kind : SlotKind) (label : String) : Bool :=
  let known := match kind with
    | .node => settings.knownAssetTypes
    | .relation => settings.knownRelationTypes
  known.all fun labels => labels.contains label

theorem requireKnown_eq_ok {known : Option (List String)} {labels : List String}
    {error : String → BindingError} : requireKnown known labels error = .ok () ↔
      ∀ label ∈ labels, known.all (fun labels => labels.contains label) = true := by
  unfold requireKnown
  cases known with
  | none => simp
  | some known =>
    dsimp only
    split
    · next label isUnknown =>
      have unknown := List.find?_some isUnknown
      have there := List.mem_of_find?_eq_some isUnknown
      simp only [reduceCtorEq, Option.all_some, false_iff, not_forall]
      exact ⟨label, there, by simpa using unknown⟩
    · next allKnown => simpa using allKnown

theorem requireKnownLabels_eq_ok {settings : Settings} {graph : Graph} :
    requireKnownLabels settings graph = .ok () ↔
      ∀ kind, ∀ label ∈ graph.allLabels kind, knows settings kind label = true := by
  constructor
  · intro required
    obtain ⟨_, nodes, relations⟩ := bind_eq_ok.mp required
    rintro (_ | _)
    · exact requireKnown_eq_ok.mp nodes
    · exact requireKnown_eq_ok.mp relations
  · intro all
    exact bind_eq_ok.mpr
      ⟨(), requireKnown_eq_ok.mpr (all .node), requireKnown_eq_ok.mpr (all .relation)⟩

/-! ## Labels of patterns -/

theorem mem_labels_pattern {pattern : Pattern} {kind : SlotKind} {label : String} :
    label ∈ pattern.labels kind ↔ kind = .node ∧ label ∈ pattern.node.labels ∨
      ∃ hop ∈ pattern.hops, label ∈ hop.labels kind := by
  cases kind <;>
    simp [Pattern.labels, Pattern.labelled, Pattern.nodes, Pattern.relationships, Hop.labels]

theorem mem_allLabels_of_bindHops {graph after : Graph} {previous : Nat} {hops : List Hop}
    (bound : bindHops graph previous hops = .ok after) {kind : SlotKind} {label : String} :
    label ∈ after.allLabels kind ↔
      label ∈ graph.allLabels kind ∨ ∃ hop ∈ hops, label ∈ hop.labels kind := by
  induction hops generalizing graph previous with
  | nil =>
    obtain rfl := Except.ok.inj bound
    simp
  | cons hop rest ih =>
    obtain ⟨⟨next, withNode⟩, nodeMentioned, bound⟩ := bind_eq_ok.mp bound
    obtain ⟨⟨relation, withRelation⟩, relationMentioned, bound⟩ := bind_eq_ok.mp bound
    rw [ih bound, Graph.mem_allLabels_of_mentionRelation relationMentioned,
      Graph.mem_allLabels_of_mentionNode nodeMentioned, List.exists_mem_cons_iff]
    cases kind <;> simp [Hop.labels, or_assoc]

theorem mem_allLabels_of_bindPattern {graph after : Graph} {pattern : Pattern}
    (bound : bindPattern graph pattern = .ok after) {kind : SlotKind} {label : String} :
    label ∈ after.allLabels kind ↔
      label ∈ graph.allLabels kind ∨ label ∈ pattern.labels kind := by
  obtain ⟨⟨start, withStart⟩, mentioned, bound⟩ := bind_eq_ok.mp bound
  rw [mem_allLabels_of_bindHops bound, Graph.mem_allLabels_of_mentionNode mentioned,
    mem_labels_pattern, or_assoc]

/-- The graph of a pattern has the labels of the pattern. -/
theorem mem_labels_of_embeds {outer : Graph} {pattern : Pattern} {embedding : Embedding}
    (isEmbedding : embeds outer pattern = some embedding) {kind : SlotKind} {label : String}
    (isLabel : label ∈ embedding.graph.allLabels kind) : label ∈ pattern.labels kind := by
  obtain ⟨_, placed, _, _⟩ := embeds_tied isEmbedding
  have inPattern := (mem_allLabels_of_bindPattern placed).mp isLabel
  cases kind <;> simpa [Graph.allLabels, Graph.empty] using inPattern

/-! ## Slots that are bound outside -/

/-- If the name is bound in the graph, it is to a slot of that kind, with those labels at least. -/
def Conforms (outer : Graph) (kind : SlotKind) (name : Option String)
    (labels : List String) : Prop :=
  ∀ given found, name = some given → outer.slot? given = some found →
    found.kind = kind ∧ labels ⊆ outer.labels found

section

variable (outer : Graph) (scope : Scope)

theorem mentionOuter_conforms (name : Option String) (kind : SlotKind) (labels : List String) :
    Yields outer (fun _ => Conforms outer kind name labels)
      (mentionOuter name kind labels scope) := by
  intro state same
  refine ⟨(mentionOuter_yields outer name ⟨kind, 0⟩ labels scope state same).1, ?_⟩
  intro value isValue given found isGiven bound
  rw [run_mentionOuter] at isValue
  cases mentioned : state.graph.mentionAgain? name kind labels scope with
  | error error =>
    rw [mentioned] at isValue
    contradiction
  | ok result =>
    obtain ⟨index, graph⟩ := result
    have sameSlots := Graph.slot?_eq_of_unscoped same
    rcases Graph.mentionAgain?_ok mentioned with
      ⟨unbound, _⟩ | ⟨again, slot, isAgain, isSlot, sameKind, agreeing, _⟩
    · nomatch (sameSlots given ▸ unbound given isGiven).symm.trans bound
    · obtain rfl := Option.some.inj (isGiven.symm.trans isAgain)
      rw [sameSlots, bound] at isSlot
      obtain rfl := Option.some.inj isSlot
      rw [Graph.labels_eq_of_unscoped same] at agreeing
      exact ⟨sameKind, Graph.subset_of_sameLabels agreeing⟩

theorem tieOuter_conforms (embedding : Embedding) (name : Option String) (kind : SlotKind)
    (labels : List String) (index : Nat) :
    Yields outer (fun _ => Conforms outer kind name labels)
      (embedding.tieOuter name kind labels scope index) := by
  apply yields_bind (mentionOuter_conforms outer scope name kind labels)
  rintro (_ | found) conforms <;> exact yields_pure conforms

theorem addNode_conforms (embedding : Embedding) (node : NodePattern) :
    Yields outer (fun _ => Conforms outer .node node.name node.labels)
      (embedding.addNode scope node) := by
  apply yields_bind (yields_liftBinding _)
  rintro ⟨index, graph⟩ _
  apply yields_bind (tieOuter_conforms outer scope _ node.name .node node.labels index)
  exact fun _ conforms => yields_pure conforms

theorem addRelation_conforms (embedding : Embedding) (relationship : RelationshipPattern)
    (left right : Nat) :
    Yields outer (fun _ => Conforms outer .relation relationship.name relationship.labels)
      (embedding.addRelation scope relationship left right) := by
  apply yields_bind (yields_liftBinding _)
  rintro ⟨index, graph⟩ _
  exact tieOuter_conforms outer scope _ relationship.name .relation relationship.labels index

theorem addHops_conforms (embedding : Embedding) (previous : Nat) (hops : List Hop) :
    Yields outer
      (fun _ => ∀ hop ∈ hops, Conforms outer .node hop.node.name hop.node.labels ∧
        Conforms outer .relation hop.relationship.name hop.relationship.labels)
      (embedding.addHops scope previous hops) := by
  induction hops generalizing embedding previous with
  | nil => exact yields_pure (List.forall_mem_nil _)
  | cons hop rest ih =>
    apply yields_bind (addNode_conforms outer scope embedding hop.node)
    rintro ⟨next, withNode⟩ ofNode
    apply yields_bind (addRelation_conforms outer scope withNode hop.relationship previous next)
    intro withRelation ofRelation
    refine (ih withRelation next).weaken ?_
    exact fun _ ofRest => List.forall_mem_cons.mpr ⟨⟨ofNode, ofRelation⟩, ofRest⟩

end

/-- Where a pattern can be tested for, its slots agree with those that are bound outside. -/
theorem embeds_conforms {outer : Graph} {pattern : Pattern} {embedding : Embedding}
    (isEmbedding : embeds outer pattern = some embedding) {kind : SlotKind}
    {name : Option String} {labels : List String} (isOne : (name, labels) ∈ pattern.labelled kind) :
    Conforms outer kind name labels := by
  have yields : Yields outer
      (fun _ => Conforms outer .node pattern.node.name pattern.node.labels ∧
        ∀ hop ∈ pattern.hops, Conforms outer .node hop.node.name hop.node.labels ∧
          Conforms outer .relation hop.relationship.name hop.relationship.labels)
      (Embedding.ofPattern (.test 0) pattern) := by
    apply yields_bind (addNode_conforms outer (.test 0) .empty pattern.node)
    rintro ⟨start, first⟩ ofNode
    refine (addHops_conforms outer (.test 0) first start pattern.hops).weaken ?_
    exact fun _ ofHops => ⟨ofNode, ofHops⟩
  obtain ⟨ofNode, ofHops⟩ := (yields ⟨outer, 0⟩ rfl).2 embedding (toOption_eq_some.mp isEmbedding)
  cases kind with
  | node =>
    obtain ⟨node, isNode, same⟩ := List.mem_map.mp isOne
    obtain ⟨rfl, rfl⟩ := Prod.mk.inj same
    rcases List.mem_cons.mp isNode with rfl | isNode
    · exact ofNode
    · obtain ⟨hop, isHop, rfl⟩ := List.mem_map.mp isNode
      exact (ofHops hop isHop).1
  | relation =>
    obtain ⟨relationship, isRelationship, same⟩ := List.mem_map.mp isOne
    obtain ⟨rfl, rfl⟩ := Prod.mk.inj same
    obtain ⟨hop, isHop, rfl⟩ := List.mem_map.mp isRelationship
    exact (ofHops hop isHop).2

/-! ## Whole runs -/

section

variable {settings : Settings} {query : Query} {final : Draft}
  (run : Run (.start settings) query.events final)
  (known : ∀ kind, ∀ label ∈ final.progress.graph.allLabels kind,
    knows settings kind label = true)

include run known

/-- Every label of a query is known, unless nothing looks at it. -/
theorem Run.knows_or_free {kind : SlotKind} {label : String} (isOne : label ∈ query.labels kind) :
    knows settings kind label = true ∨ label ∈ query.freeLabels kind := by
  obtain ⟨event, isEvent, inEvent⟩ := List.mem_flatMap.mp isOne
  obtain ⟨pattern, isPattern, inPattern⟩ := List.mem_flatMap.mp inEvent
  obtain ⟨stage, isStage, rfl⟩ := Query.exists_mem_stages isEvent
  obtain ⟨before, after, passed⟩ := run.passed (fun stage _ => upholds_true stage) isStage
  by_cases isTest : pattern ∈ stage.event.tests
  · obtain ⟨⟨name, labels⟩, isSlot, isLabel⟩ := List.mem_flatMap.mp inPattern
    by_cases free : ∀ given, name = some given → given ∉ stage.known.bound
    · exact .inr (mem_freeLabels.mpr
        ⟨stage, isStage, pattern, isTest, name, labels, isSlot, free, isLabel⟩)
    · -- What a name is bound to outside has the labels, and they were looked at there.
      push Not at free
      obtain ⟨given, isGiven, bound⟩ := free
      obtain ⟨found, isFound⟩ := Option.isSome_iff_exists.mp ((passed.sound.bound given).mp bound)
      obtain ⟨embedding, isEmbedding⟩ := passed.embeds (mem_tests.mp isTest)
      obtain ⟨rfl, sub⟩ := embeds_conforms isEmbedding isSlot given found isGiven isFound
      have there := Graph.labels_subset_allLabels _ found (sub isLabel)
      exact .inl (known _ label (passed.within_before.graph.allLabels _ there))
  · obtain ⟨earlier, event⟩ := stage
    cases passed.step with
    | mention bound =>
      obtain rfl := List.mem_singleton.mp isPattern
      have there := (mem_allLabels_of_bindPattern bound).mpr (.inr inPattern)
      exact .inl (known kind label (passed.within.graph.allLabels kind there))
    | filter | give | keep | pass | list => exact absurd isPattern isTest

end

/-! ## Tests for types -/

/-- A test for a type is for a known label, or is one of a sub-select and for a label that nothing
looks at. -/
def Justified (settings : Settings) (query : Query) (test : Test) : Prop :=
  ∀ row label, test = .hasType row label →
    (∃ slot, row = .outer slot ∧ knows settings slot.kind label = true) ∨
      ∃ slot, row = .inner slot ∧
        (knows settings slot.kind label = true ∨ label ∈ query.freeLabels slot.kind)

theorem justified_of_mem_endCondition {settings : Settings} {query : Query}
    {relation left right : Alias} {direction : Direction} {test : Test}
    (isEnd : test ∈ (endCondition relation left right direction).leaves) :
    Justified settings query test := by
  rintro row label rfl
  obtain ⟨_, _, runs | runs⟩ := mem_leaves_endCondition isEnd <;> contradiction

section

variable {settings : Settings} {query : Query} {final : Draft}
  (run : Run (.start settings) query.events final)
  (known : ∀ kind, ∀ label ∈ final.progress.graph.allLabels kind,
    knows settings kind label = true)

include known in
theorem justified_shapeTests {test : Test}
    (isOne : test ∈ shapeTests settings final.progress.graph final.progress.predicates) :
    Justified settings query test := by
  rcases (mem_shapeTests _ _ _).mp isOne with ⟨node, isNode, label, isLabel, rfl⟩ |
    ⟨relation, isRelation, ⟨label, isLabel, rfl⟩ | isEnd⟩
  · rintro _ _ ⟨⟩
    have there := List.mem_flatMap.mpr ⟨node, isNode, isLabel⟩
    exact .inl ⟨_, rfl, known .node label there⟩
  · rintro _ _ ⟨⟩
    have there := List.mem_flatMap.mpr ⟨relation, isRelation, isLabel⟩
    exact .inl ⟨_, rfl, known .relation label there⟩
  · exact justified_of_mem_endCondition isEnd

include run known in
/-- The labels that a sub-select tests for are those of its pattern. -/
theorem Run.justified_subselect {stage : Stage} (isStage : stage ∈ query.stages) {pattern : Pattern}
    (isTest : pattern ∈ stage.event.tests) {outer : Graph} {embedding : Embedding}
    (isEmbedding : embeds outer pattern = some embedding) {test : Test}
    (isOne : test ∈ (embedding.subselect settings).condition.leaves) :
    Justified settings query test := by
  obtain ⟨_, _, _, tied⟩ := embeds_tied isEmbedding
  have written : ∀ kind, ∀ label ∈ embedding.graph.allLabels kind,
      knows settings kind label = true ∨ label ∈ query.freeLabels kind := by
    intro kind label isLabel
    have inPattern := mem_labels_of_embeds isEmbedding isLabel
    refine run.knows_or_free known (List.mem_flatMap.mpr ⟨stage.event, ?_, ?_⟩)
    · exact Query.event_mem_of_mem_stages isStage
    · exact List.mem_flatMap.mpr ⟨pattern, tests_subset_patterns _ isTest, inPattern⟩
  rcases mem_leaves_subselect.mp isOne with isTie | ⟨node, isNode, label, isLabel, rfl⟩ |
    ⟨relation, isRelation, ⟨label, isLabel, rfl⟩ | isEnd⟩
  · obtain ⟨_, _, _, _, rfl⟩ := (tied.ties test).mp isTie
    rintro _ _ ⟨⟩
  · rintro _ _ ⟨⟩
    have there := List.mem_flatMap.mpr ⟨node, isNode, isLabel⟩
    exact .inr ⟨_, rfl, written .node label there⟩
  · rintro _ _ ⟨⟩
    have there := List.mem_flatMap.mpr ⟨relation, isRelation, isLabel⟩
    exact .inr ⟨_, rfl, written .relation label there⟩
  · exact justified_of_mem_endCondition isEnd

theorem tests_eq_nil {lexeme : Lexeme} (isFixed : Lexicon.isFixed lexeme = true) :
    lexeme.tests = [] := by
  cases lexeme <;> first | rfl | contradiction

include run known in
theorem Run.justified {branch : Branch Statement} (places : Places settings final branch) :
    ∀ test ∈ branch.tests, Justified settings query test := by
  have ofRows : OfRows fun lexeme => ∀ test ∈ lexeme.tests, Justified settings query test :=
    { fixed := fun lexeme isFixed => by
        rw [tests_eq_nil isFixed]
        exact List.forall_mem_nil _
      column := fun _ _ _ _ _ => List.forall_mem_nil _ }
  have lexemes := run.forall_lexemes places ofRows fun stage isStage draft sound within =>
    { slot := fun _ _ _ => List.forall_mem_nil _
      word := fun _ _ _ _ => List.forall_mem_nil _
      path := fun _ _ _ _ _ _ => List.forall_mem_nil _
      text := fun _ _ => ⟨List.forall_mem_nil _, fun _ => List.forall_mem_nil _⟩
      test := fun pattern embedding isOne isEmbedding test isTest =>
        run.justified_subselect known isStage (mem_tests.mpr isOne) isEmbedding
          (sound.settings ▸ isTest) }
  intro test isOne
  rcases List.mem_append.mp isOne with inFilter | inLexeme
  · obtain ⟨leaf, isLeaf, isOne⟩ := List.mem_flatMap.mp inFilter
    cases leaf with
    | shape =>
      obtain rfl := List.mem_singleton.mp isOne
      exact justified_shapeTests known (places.tests test isLeaf)
    | predicate | never => contradiction
  · obtain ⟨lexeme, isLexeme, isOne⟩ := List.mem_flatMap.mp inLexeme
    exact lexemes lexeme isLexeme test isOne

end

end Compilation

open Compilation

/-! ## Whole queries -/

/-- If a query is accepted, all of its labels are known as soon as those are known that stand inside
expressions, at slots that no `MATCH` has bound.  No test for a type is for any label but these and
known ones. -/
theorem Cypher.Query.labels_known_iff {settings : Settings} {query : Query}
    {compiled : CompiledQuery} (compiles : query.compile settings = .ok compiled) :
    (∀ kind, (∀ label ∈ query.labels kind, knows settings kind label = true) ↔
      ∀ label ∈ query.freeLabels kind, knows settings kind label = true) ∧
    ∀ branch ∈ compiled.statement.branches, ∀ test ∈ branch.tests,
      Justified settings query test := by
  obtain ⟨progress, final, _, same, required, run, places⟩ := Query.compile_places compiles
  have known : ∀ kind, ∀ label ∈ final.progress.graph.allLabels kind,
      knows settings kind label = true := by
    intro kind label isLabel
    rw [Graph.allLabels_eq_of_unscoped same] at isLabel
    exact requireKnownLabels_eq_ok.mp required kind label isLabel
  refine ⟨fun kind => ⟨fun all label isFree => all label (freeLabels_subset query kind isFree), ?_⟩,
    fun branch isBranch => run.justified known (places branch isBranch)⟩
  intro free label isOne
  rcases run.knows_or_free known isOne with knows | isFree
  · exact knows
  · exact free label isFree

/-! ## A label inside a test -/

namespace Compilation

def bogusText : String :=
  "MATCH (a:ip) WHERE (a)-->(:bogus) RETURN a"

/-- Assets are of type `ip` only. -/
def onlyIp : Settings :=
  { Settings.standard with knownAssetTypes := some ["ip"] }

theorem bogusText_compiles : ∃ query compiled, Query.parse bogusText = .ok query ∧
    query.compile onlyIp = .ok compiled ∧ "bogus" ∈ query.labels .node ∧
      ∃ branch ∈ compiled.statement.branches,
        Test.hasType (.inner ⟨.node, 1⟩) "bogus" ∈ branch.tests := by
  have evaluated : ((Query.parse bogusText).toOption.any fun query =>
      (query.compile onlyIp).toOption.any fun compiled =>
        (query.labels .node).contains "bogus" &&
          compiled.statement.branches.any fun branch =>
            branch.tests.contains (.hasType (.inner ⟨.node, 1⟩) "bogus")) = true := by
    decide +kernel
  rw [Option.any_eq_true] at evaluated
  obtain ⟨query, parsed, evaluated⟩ := evaluated
  rw [Option.any_eq_true] at evaluated
  obtain ⟨compiled, compiles, evaluated⟩ := evaluated
  obtain ⟨written, evaluated⟩ := Bool.and_eq_true_iff.mp evaluated
  obtain ⟨branch, isBranch, tested⟩ := List.any_eq_true.mp evaluated
  exact ⟨query, compiled, toOption_eq_some.mp parsed, toOption_eq_some.mp compiles,
    List.contains_iff_mem.mp written, branch, isBranch, List.contains_iff_mem.mp tested⟩

end Compilation

theorem Cypher.Query.labels_known_iff_bogusText : ∃ query compiled,
    Query.parse bogusText = .ok query ∧ query.compile onlyIp = .ok compiled ∧
      (∀ kind, (∀ label ∈ query.labels kind, knows onlyIp kind label = true) ↔
        ∀ label ∈ query.freeLabels kind, knows onlyIp kind label = true) ∧
      ∀ branch ∈ compiled.statement.branches, ∀ test ∈ branch.tests,
        Justified onlyIp query test := by
  obtain ⟨query, compiled, parsed, compiles, _⟩ := bogusText_compiles
  exact ⟨query, compiled, parsed, compiles, query.labels_known_iff compiles⟩

/-- That query is accepted, though `bogus` is not known, and is tested for that type. -/
theorem Cypher.Query.not_labels_known_bogusText : ∃ query compiled,
    Query.parse bogusText = .ok query ∧ query.compile onlyIp = .ok compiled ∧
      (¬∀ label ∈ query.labels .node, knows onlyIp .node label = true) ∧
      ¬∀ branch ∈ compiled.statement.branches, ∀ slot label,
        .hasType (.inner slot) label ∈ branch.tests → knows onlyIp slot.kind label = true := by
  obtain ⟨query, compiled, parsed, compiles, written, branch, isBranch, tested⟩ :=
    bogusText_compiles
  have unknown : knows onlyIp .node "bogus" = false := by decide
  refine ⟨query, compiled, parsed, compiles, fun all => ?_, fun all => ?_⟩
  · nomatch unknown.symm.trans (all "bogus" written)
  · nomatch unknown.symm.trans (all branch isBranch ⟨.node, 1⟩ "bogus" tested)

end CypherSql
