import CypherSql.Proofs.Compilation.Hops
import CypherSql.Proofs.Compilation.Tests
import CypherSql.Proofs.Graph.Calls

/-! # How the slots of a pattern are tied to outer ones

The pattern of a test is put into a graph of its own, mention by mention.  A mention whose name is
bound outside ties its slot to the outer slot of that name.  A slot is tied once only, which is
enough, since a slot that is mentioned again is mentioned by the same name.

* `Yields` — what a computation gives in every state with the slots of a graph.
* `Mentioned` — all that a mention can do to the graph of a pattern.
* `Tied` — the ties are exactly those that the mentions ask for.
* `Embedding.ofPattern_yields` — the graph of a pattern is that of its hops, and is tied so.
-/

namespace CypherSql.Compilation

open CypherSql.Cypher (Hop NodePattern Pattern RelationshipPattern)
open CypherSql.Graph (BindingError Direction Scope Slot SlotKind properName)
open CypherSql.Sql (Test)

/-! ## Values in states with given slots -/

/-- In every state with the slots of a graph, a computation leaves the slots as they are, and its
value has a property if there is one. -/
def Yields {α : Type} (outer : Graph) (P : α → Prop) (computation : Compile α) : Prop :=
  ∀ state, state.graph.unscoped = outer.unscoped →
    (computation.run.run state).2.graph.unscoped = outer.unscoped ∧
      ∀ value, (computation.run.run state).1 = .ok value → P value

section

variable {α β : Type} {outer : Graph} {P : β → Prop}

theorem yields_bind {Q : α → Prop} {first : Compile α} {next : α → Compile β}
    (yields : Yields outer Q first) (yieldsNext : ∀ value, Q value → Yields outer P (next value)) :
    Yields outer P (first >>= next) := by
  intro state same
  have behind := yields state same
  rw [run_bind]
  generalize first.run.run state = outcome at behind ⊢
  obtain ⟨_ | value, after⟩ := outcome
  · exact ⟨behind.1, fun _ failed => nomatch failed⟩
  · exact yieldsNext value (behind.2 value rfl) after behind.1

theorem yields_pure {value : β} (holds : P value) : Yields outer P (pure value : Compile β) := by
  intro state same
  refine ⟨same, fun result isResult => ?_⟩
  obtain rfl := Except.ok.inj isResult
  exact holds

theorem yields_liftBinding (result : Except BindingError α) :
    Yields outer (fun value => result = .ok value) (liftBinding result) := by
  cases result with
  | error error => exact fun state same => ⟨same, fun _ failed => nomatch failed⟩
  | ok value => exact yields_pure rfl

theorem Yields.weaken {Q : β → Prop} {computation : Compile β}
    (yields : Yields outer Q computation) (weaker : ∀ value, Q value → P value) :
    Yields outer P computation :=
  fun state same =>
    ⟨(yields state same).1, fun value isValue => weaker value ((yields state same).2 value isValue)⟩

end

/-! ## Mentions -/

/-- A name, if there is one, and the slot of the pattern that it is used for. -/
structure Mention where
  name : Option String
  slot : Slot

/-- The outer slot of the name. -/
def Mention.outer? (outer : Graph) (mention : Mention) : Option Slot :=
  mention.name.bind outer.slot?

theorem mentionOuter_yields (outer : Graph) (name : Option String) (slot : Slot)
    (labels : List String) (scope : Scope) :
    Yields outer
      (fun found => Mention.outer? outer ⟨name, slot⟩ = found.map fun index => ⟨slot.kind, index⟩)
      (mentionOuter name slot.kind labels scope) := by
  intro state same
  rw [run_mentionOuter]
  cases mentioned : state.graph.mentionAgain? name slot.kind labels scope with
  | error error => exact ⟨same, fun _ failed => nomatch failed⟩
  | ok result =>
    obtain ⟨found, graph⟩ := result
    refine ⟨(Graph.mentionAgain?_unscoped mentioned).trans same, fun value isValue => ?_⟩
    obtain rfl : found = value := Except.ok.inj isValue
    have sameSlots := Graph.slot?_eq_of_unscoped same
    rcases Graph.mentionAgain?_ok mentioned with
      ⟨unbound, rfl, rfl⟩ | ⟨given, ⟨kind, index⟩, rfl, bound, rfl, -, rfl, rfl⟩
    · cases name with
      | none => rfl
      | some given => exact (sameSlots given).symm.trans (unbound given rfl)
    · exact (sameSlots given).symm.trans bound

theorem eq_of_properName {name : Option String} {given : String}
    (proper : properName name = some given) : name = some given :=
  (Option.filter_eq_some_iff.mp proper).1

/-- A mention finds a slot that is there, by a name that it has, or adds one.  Names that it binds
mean that slot. -/
structure Mentioned (before : Graph) (mention : Mention) (after : Graph) : Prop where
  wellFormed : after.WellFormed
  grows : ∀ kind, before.size kind ≤ after.size kind
  there : mention.slot.index < after.size mention.slot.kind
  named : ∀ given found, after.slot? given = some found →
    before.slot? given = some found ∨ properName mention.name = some given ∧ found = mention.slot
  again : mention.slot.index < before.size mention.slot.kind →
    ∃ given, properName mention.name = some given ∧ before.slot? given = some mention.slot

section

variable {before after : Graph} (wellFormed : before.WellFormed) {labels : List String}
  {name : Option String} {scope : Scope}

include wellFormed

/-- The slot is there already, and only the record of who mentions it changes. -/
theorem mentioned_again {given : String} (isGiven : properName name = some given) {slot : Slot}
    (bound : before.slot? given = some slot) :
    Mentioned before ⟨name, slot⟩ (before.addScope slot scope) := by
  have same := Graph.unscoped_addScope before slot scope
  have sizes : (before.addScope slot scope).size = before.size := by
    funext kind
    cases kind with
    | node => exact Graph.length_nodes_eq_of_unscoped same
    | relation => simpa [Graph.unscoped, Graph.size] using congrArg (·.relations.length) same
  constructor
  case wellFormed => exact wellFormed.of_unscoped same
  case grows => simp [sizes]
  case there => exact sizes ▸ wellFormed.index_lt bound
  case named =>
    intro other found isFound
    exact .inl (Graph.slot?_eq_of_unscoped same other ▸ isFound)
  case again => exact fun _ => ⟨given, isGiven, bound⟩

omit wellFormed in
/-- The slot is new, and so is its name if it has one. -/
theorem mentioned_fresh {grown : Graph} {slot : Slot}
    (changed : (grown.bind (properName name) slot).WellFormed)
    (sameNames : ∀ given, grown.slot? given = before.slot? given)
    (grows : ∀ kind, before.size kind ≤ grown.size kind)
    (isNew : slot.index = before.size slot.kind) (there : slot.index < grown.size slot.kind) :
    Mentioned before ⟨name, slot⟩ (grown.bind (properName name) slot) := by
  have sizes : (grown.bind (properName name) slot).size = grown.size := by
    cases properName name <;> rfl
  constructor
  case wellFormed => exact changed
  case grows => exact sizes ▸ grows
  case there => exact sizes ▸ there
  case named =>
    intro given found isFound
    rw [Graph.slot?_bind, sameNames] at isFound
    cases bound : before.slot? given with
    | some other =>
      rw [bound, Option.some_or] at isFound
      exact .inl isFound
    | none =>
      rw [bound, Option.none_or] at isFound
      split at isFound
      · next isGiven => exact .inr ⟨isGiven, (Option.some.inj isFound).symm⟩
      · contradiction
  case again =>
    intro early
    rw [isNew] at early
    exact absurd early (Nat.lt_irrefl _)

theorem mentioned_node {index : Nat}
    (mentioned : before.mentionNode labels name scope = .ok (index, after)) :
    Mentioned before ⟨name, ⟨.node, index⟩⟩ after := by
  have changed := wellFormed.change (Graph.change_of_mentionNode mentioned)
  rcases Graph.mentionNode_ok mentioned with ⟨given, isGiven, bound, _, rfl⟩ | ⟨_, rfl, rfl⟩
  · exact mentioned_again wellFormed isGiven bound
  · refine mentioned_fresh changed (fun _ => rfl) (fun kind => ?_) rfl (by simp [Graph.size])
    cases kind <;> simp [Graph.size]

theorem mentioned_relation {left right index : Nat} {direction : Direction}
    (mentioned : before.mentionRelation labels name left right direction scope =
      .ok (index, after)) : Mentioned before ⟨name, ⟨.relation, index⟩⟩ after := by
  have changed := wellFormed.change (Graph.change_of_mentionRelation mentioned)
  obtain ⟨_, _, mentioned⟩ := Graph.mentionRelation_ok mentioned
  rcases mentioned with ⟨given, isGiven, bound, _, rfl⟩ | ⟨_, rfl, rfl⟩
  · exact mentioned_again wellFormed isGiven bound
  · refine mentioned_fresh changed (fun _ => rfl) (fun kind => ?_) rfl (by simp [Graph.size])
    cases kind <;> simp [Graph.size]

end

/-! ## Ties -/

theorem mem_of_mem_insertOrdered {α : Type} {before : α → α → Bool} {x y : α} {set : List α}
    (isOne : y ∈ insertOrdered before x set) : y = x ∨ y ∈ set := by
  fun_induction insertOrdered before x set with
  | case1 => exact .inl (List.mem_singleton.mp isOne)
  | case2 => exact List.mem_cons.mp isOne
  | case3 z rest _ _ ih =>
    rcases List.mem_cons.mp isOne with rfl | later
    · exact .inr List.mem_cons_self
    · exact (ih later).imp_right (List.mem_cons_of_mem _)
  | case4 => exact .inr isOne

/-- The ties are those that the mentions ask for.  A slot that is tied is there, and by each of
its names it is tied already. -/
structure Tied (outer : Graph) (mentions : List Mention) (embedding : Embedding) : Prop where
  wellFormed : embedding.graph.WellFormed
  inRange : ∀ slot ∈ embedding.tied, slot.index < embedding.graph.size slot.kind
  known : ∀ slot ∈ embedding.tied, ∀ given, embedding.graph.slot? given = some slot →
    ∀ found, outer.slot? given = some found → .sameId (.inner slot) (.outer found) ∈ embedding.ties
  ties : ∀ test, test ∈ embedding.ties ↔ ∃ mention ∈ mentions, ∃ found,
    mention.outer? outer = some found ∧ test = .sameId (.inner mention.slot) (.outer found)

namespace Tied

variable {outer : Graph} {mentions : List Mention} {embedding : Embedding}

theorem empty (outer : Graph) : Tied outer [] .empty where
  wellFormed := Graph.wellFormed_empty
  inRange := by simp [Embedding.empty]
  known := by simp [Embedding.empty]
  ties := by simp [Embedding.empty]

/-- Only which mentions there are counts. -/
theorem of_mem_iff {others : List Mention} (tied : Tied outer mentions embedding)
    (same : ∀ mention, mention ∈ mentions ↔ mention ∈ others) : Tied outer others embedding :=
  { tied with ties := fun test => (tied.ties test).trans (by simp only [same]) }

variable (tied : Tied outer mentions embedding) {mention : Mention} {graph : Graph}
  (mentioned : Mentioned embedding.graph mention graph)

include tied mentioned

/-- A slot that is tied has no names but those that it had. -/
theorem known_later {slot : Slot} (isTied : slot ∈ embedding.tied) {given : String}
    (bound : graph.slot? given = some slot) {found : Slot}
    (isFound : outer.slot? given = some found) :
    .sameId (.inner slot) (.outer found) ∈ embedding.ties := by
  rcases mentioned.named given slot bound with before | ⟨isGiven, rfl⟩
  · exact tied.known slot isTied given before found isFound
  · obtain ⟨other, isOther, before⟩ := mentioned.again (tied.inRange _ isTied)
    obtain rfl := Option.some.inj (isOther.symm.trans isGiven)
    exact tied.known _ isTied _ before found isFound

/-- A mention whose name is not bound outside asks for no tie. -/
theorem untied (unbound : mention.outer? outer = none) :
    Tied outer (mention :: mentions) { embedding with graph } where
  wellFormed := mentioned.wellFormed
  inRange slot isTied := Nat.lt_of_lt_of_le (tied.inRange slot isTied) (mentioned.grows slot.kind)
  known slot isTied given bound found isFound :=
    tied.known_later mentioned isTied bound isFound
  ties test := by
    rw [tied.ties test]
    simp [unbound]

/-- Whatever name of the slot is looked up, it is the name of the mention. -/
theorem eq_of_bound {given other : String} (isGiven : mention.name = some given)
    (bound : graph.slot? other = some mention.slot) : other = given := by
  have proper : properName mention.name = some other := by
    rcases mentioned.named other mention.slot bound with before | ⟨proper, -⟩
    · obtain ⟨first, isFirst, firstBound⟩ := mentioned.again (tied.wellFormed.index_lt before)
      rwa [tied.wellFormed.eq_of_slot? before firstBound]
    · exact proper
  exact Option.some.inj ((eq_of_properName proper).symm.trans isGiven)

/-- A slot that is tied already has the tie that the mention asks for. -/
theorem tie_mem (isTied : mention.slot ∈ embedding.tied) {found : Slot}
    (bound : mention.outer? outer = some found) :
    .sameId (.inner mention.slot) (.outer found) ∈ embedding.ties := by
  obtain ⟨given, isGiven, isFound⟩ := Option.bind_eq_some_iff.mp bound
  obtain ⟨other, proper, there⟩ := mentioned.again (tied.inRange _ isTied)
  obtain rfl := Option.some.inj ((eq_of_properName proper).symm.trans isGiven)
  exact tied.known _ isTied _ there found isFound

/-- A mention whose name is bound outside ties its slot, if that is not done yet. -/
theorem tie {found : Slot} (bound : mention.outer? outer = some found) :
    Tied outer (mention :: mentions) (({ embedding with graph } : Embedding).tie mention.slot found) := by
  have asked : ∀ test, (test = .sameId (.inner mention.slot) (.outer found) ∨
      test ∈ embedding.ties) ↔ ∃ other ∈ mention :: mentions, ∃ found,
        other.outer? outer = some found ∧ test = .sameId (.inner other.slot) (.outer found) := by
    intro test
    rw [tied.ties test]
    simp [bound]
  by_cases isTied : mention.slot ∈ embedding.tied
  · have before := tied.tie_mem mentioned isTied bound
    rw [Embedding.tie, if_pos (by simpa using isTied)]
    constructor
    case wellFormed => exact mentioned.wellFormed
    case inRange =>
      exact fun slot isOne => Nat.lt_of_lt_of_le (tied.inRange slot isOne) (mentioned.grows slot.kind)
    case known => exact fun slot isOne given bound found => tied.known_later mentioned isOne bound
    case ties =>
      intro test
      rw [← asked test]
      constructor
      · exact .inr
      · rintro (rfl | isOne)
        · exact before
        · exact isOne
  · rw [Embedding.tie, if_neg (by simpa using isTied)]
    constructor
    case wellFormed => exact mentioned.wellFormed
    case inRange =>
      intro slot isOne
      rcases mem_of_mem_insertOrdered isOne with rfl | early
      · exact mentioned.there
      · exact Nat.lt_of_lt_of_le (tied.inRange slot early) (mentioned.grows slot.kind)
    case known =>
      intro slot isOne other isOther last isLast
      rw [List.mem_append, List.mem_singleton]
      rcases mem_of_mem_insertOrdered isOne with rfl | early
      · obtain ⟨given, isGiven, isFound⟩ := Option.bind_eq_some_iff.mp bound
        obtain rfl := tied.eq_of_bound mentioned isGiven isOther
        obtain rfl := Option.some.inj (isFound.symm.trans isLast)
        exact .inr rfl
      · exact .inl (tied.known_later mentioned early isOther isLast)
    case ties =>
      intro test
      rw [← asked test, List.mem_append, List.mem_singleton, or_comm]

end Tied

/-! ## Whole patterns -/

/-- The names of a hop and the slots that they are used for. -/
def Placement.mentions (placement : Placement) : List Mention :=
  [⟨placement.source.name, ⟨.node, placement.left⟩⟩,
    ⟨placement.hop.node.name, ⟨.node, placement.right⟩⟩,
    ⟨placement.hop.relationship.name, ⟨.relation, placement.relation⟩⟩]

namespace Embedding

variable {outer : Graph} {mentions : List Mention} {embedding : Embedding}

theorem tieOuter_yields (tied : Tied outer mentions embedding) {graph : Graph}
    {name : Option String} {slot : Slot} (mentioned : Mentioned embedding.graph ⟨name, slot⟩ graph)
    (labels : List String) (scope : Scope) :
    Yields outer (fun after => after.graph = graph ∧ Tied outer (⟨name, slot⟩ :: mentions) after)
      (({ embedding with graph } : Embedding).tieOuter name slot.kind labels scope slot.index) := by
  apply yields_bind (mentionOuter_yields outer name slot labels scope)
  rintro (_ | index) isFound
  · exact yields_pure ⟨rfl, tied.untied mentioned isFound⟩
  · apply yields_pure
    refine ⟨?_, tied.tie mentioned isFound⟩
    unfold Embedding.tie
    split <;> rfl

theorem addNode_yields (tied : Tied outer mentions embedding) (scope : Scope) (node : NodePattern) :
    Yields outer
      (fun added =>
        embedding.graph.mentionNode node.labels node.name .clause = .ok (added.1, added.2.graph) ∧
          Tied outer (⟨node.name, ⟨.node, added.1⟩⟩ :: mentions) added.2)
      (embedding.addNode scope node) := by
  apply yields_bind (yields_liftBinding _)
  rintro ⟨index, graph⟩ mentionedNode
  have mentioned := mentioned_node tied.wellFormed mentionedNode
  apply yields_bind (tieOuter_yields tied mentioned node.labels scope)
  rintro after ⟨rfl, tiedAfter⟩
  exact yields_pure ⟨mentionedNode, tiedAfter⟩

theorem addRelation_yields (tied : Tied outer mentions embedding) (scope : Scope)
    (relationship : RelationshipPattern) (left right : Nat) :
    Yields outer
      (fun after => ∃ index, embedding.graph.mentionRelation relationship.labels relationship.name
          left right (.ofArrows relationship.leftArrow relationship.rightArrow) .clause =
            .ok (index, after.graph) ∧
        Tied outer (⟨relationship.name, ⟨.relation, index⟩⟩ :: mentions) after)
      (embedding.addRelation scope relationship left right) := by
  apply yields_bind (yields_liftBinding _)
  rintro ⟨index, graph⟩ mentionedRelation
  have mentioned := mentioned_relation tied.wellFormed mentionedRelation
  refine (tieOuter_yields tied mentioned relationship.labels scope).weaken ?_
  rintro after ⟨rfl, tiedAfter⟩
  exact ⟨index, mentionedRelation, tiedAfter⟩

/-- The hops are placed as in a graph of their own, and their names are tied.  The node that they
leave is mentioned by the first of them. -/
theorem addHops_yields (tied : Tied outer mentions embedding) (scope : Scope) {source : NodePattern}
    {left : Nat} (known : ⟨source.name, ⟨.node, left⟩⟩ ∈ mentions) (hops : List Hop) :
    Yields outer
      (fun after => ∃ placements,
        placeHops embedding.graph source left hops = .ok (placements, after.graph) ∧
          Tied outer (mentions ++ placements.flatMap Placement.mentions) after ∧
          (hops ≠ [] → ⟨source.name, ⟨.node, left⟩⟩ ∈ placements.flatMap Placement.mentions))
      (embedding.addHops scope left hops) := by
  induction hops generalizing embedding mentions source left with
  | nil => exact yields_pure ⟨[], rfl, by simpa using tied, fun present => absurd rfl present⟩
  | cons hop rest ih =>
    apply yields_bind (addNode_yields tied scope hop.node)
    rintro ⟨right, withNode⟩ ⟨nodeMentioned, tiedNode⟩
    apply yields_bind (addRelation_yields tiedNode scope hop.relationship left right)
    rintro withRelation ⟨relation, relationMentioned, tiedRelation⟩
    have knownNext : ⟨hop.node.name, ⟨.node, right⟩⟩ ∈
        (⟨hop.relationship.name, ⟨.relation, relation⟩⟩ ::
          ⟨hop.node.name, ⟨.node, right⟩⟩ :: mentions : List Mention) := by simp
    refine (ih tiedRelation knownNext).weaken ?_
    rintro after ⟨others, placed, tiedAfter, -⟩
    refine ⟨⟨source, hop, left, right, relation⟩ :: others, ?_, ?_, ?_⟩
    · exact bind_eq_ok.mpr ⟨_, nodeMentioned, bind_eq_ok.mpr ⟨_, relationMentioned,
        bind_eq_ok.mpr ⟨_, placed, rfl⟩⟩⟩
    -- That the node the hop leaves is mentioned once more adds nothing.
    · apply tiedAfter.of_mem_iff
      intro mention
      simp only [List.mem_append, List.mem_cons, List.flatMap_cons, Placement.mentions,
        List.not_mem_nil, or_false]
      constructor
      · tauto
      · rintro (early | ((rfl | rfl | rfl) | late))
        · tauto
        · tauto
        · tauto
        · tauto
        · tauto
    · simp [Placement.mentions]

/-- The graph of a pattern is that of its hops, and exactly their names are tied. -/
theorem ofPattern_yields (outer : Graph) (scope : Scope) {pattern : Pattern}
    (present : pattern.hops ≠ []) :
    Yields outer
      (fun embedding => ∃ placements,
        placePattern .empty pattern = .ok (placements, embedding.graph) ∧
          Tied outer (placements.flatMap Placement.mentions) embedding)
      (ofPattern scope pattern) := by
  apply yields_bind (addNode_yields (.empty outer) scope pattern.node)
  rintro ⟨start, embedding⟩ ⟨mentioned, tied⟩
  refine (addHops_yields tied scope List.mem_cons_self pattern.hops).weaken ?_
  rintro after ⟨placements, placed, tiedAfter, startMentioned⟩
  refine ⟨placements, ?_, ?_⟩
  · exact bind_eq_ok.mpr ⟨_, mentioned, placed⟩
  · apply tiedAfter.of_mem_iff
    intro mention
    have isMentioned := startMentioned present
    simp only [List.mem_append, List.mem_singleton]
    constructor
    · rintro (rfl | later)
      · exact isMentioned
      · exact later
    · exact .inr

end Embedding

end CypherSql.Compilation
