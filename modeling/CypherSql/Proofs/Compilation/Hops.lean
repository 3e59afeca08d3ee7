import CypherSql.Proofs.Compilation.Progress
import CypherSql.Proofs.Sql.Rows

/-! # The hops of a query and the slots they speak of

Every hop of a `MATCH` pattern speaks of two nodes and of a relation between them.  A
relation gets its ends where its variable is used for the first time; where a variable
is used again, the ends of the further hop are left aside.

* `Placement` — a hop with the numbers of its slots.
* `Query.placements` — the hops of a query, in the order in which they take effect.
* `founding` — the hops that are the first to use their variable.
* `Traced` — what a sequence of hops does to a graph.
* `Query.placements_ok` — the relations of the graph of a query are its founding hops.
-/

namespace CypherSql

open CypherSql.Cypher

namespace Compilation

open CypherSql.Graph (BindingError Direction KeepsNames Numbered Slot SlotKind properName)
open CypherSql.Sql (Alias Record equal)

/-! ## Ends -/

structure Ends where
  relation : Nat
  left : Nat
  right : Nat
  direction : Direction

def endsOf (relation : Graph.Relation) : Ends :=
  ⟨relation.id, relation.left, relation.right, relation.direction⟩

section

variable {V : Type} [DecidableEq V]

/-- The row of a relation runs from the row of one node to that of another. -/
def Ends.runs (rows : Alias → Record V) (ends : Ends) (start finish : Nat) : Bool :=
  equal (rows (relationRow ends.relation) "from_id") (rows (nodeRow start) "id") &&
    equal (rows (relationRow ends.relation) "to_id") (rows (nodeRow finish) "id")

/-- The row of a relation joins the rows of its nodes the way its direction asks. -/
def Ends.joined (rows : Alias → Record V) (ends : Ends) : Bool :=
  match ends.direction with
  | .right => ends.runs rows ends.left ends.right
  | .left => ends.runs rows ends.right ends.left
  | .either => ends.runs rows ends.left ends.right || ends.runs rows ends.right ends.left
  | .both => ends.runs rows ends.left ends.right && ends.runs rows ends.right ends.left

theorem holds_endCondition (constant : String → V) (rows : Alias → Record V) (ends : Ends) :
    (endCondition (relationRow ends.relation) (nodeRow ends.left) (nodeRow ends.right)
      ends.direction).holds (Sql.Test.holds constant rows) = ends.joined rows := by
  obtain ⟨relation, left, right, direction⟩ := ends
  cases direction <;>
    simp [endCondition, runsBetween, Sql.Test.holds, Ends.joined, Ends.runs]

end

/-! ## Placements -/

/-- A hop, the node it leaves, and the numbers of the slots that the two nodes and the
relationship mean. -/
structure Placement where
  source : NodePattern
  hop : Hop
  left : Nat
  right : Nat
  relation : Nat

namespace Placement

def ends (placement : Placement) : Ends where
  relation := placement.relation
  left := placement.left
  right := placement.right
  direction := .ofArrows placement.hop.relationship.leftArrow placement.hop.relationship.rightArrow

def name (placement : Placement) : Option String :=
  properName placement.hop.relationship.name

/-- A name, if there is one, means the slot with this number. -/
def Means (graph : Graph) (name : Option String) (kind : SlotKind) (index : Nat) : Prop :=
  ∀ given, properName name = some given → graph.slot? given = some ⟨kind, index⟩

/-- All names of a hop mean the slots it speaks of. -/
structure Resolved (graph : Graph) (placement : Placement) : Prop where
  source : Means graph placement.source.name .node placement.left
  node : Means graph placement.hop.node.name .node placement.right
  relationship : Means graph placement.hop.relationship.name .relation placement.relation

theorem Means.kept {earlier later : Graph} {given : Option String} {kind : SlotKind} {index : Nat}
    (means : Means earlier given kind index) (kept : KeepsNames earlier later) :
    Means later given kind index :=
  fun name isGiven => kept name _ (means name isGiven)

theorem Resolved.kept {earlier later : Graph} {placement : Placement}
    (resolved : placement.Resolved earlier) (kept : KeepsNames earlier later) :
    placement.Resolved later :=
  ⟨resolved.source.kept kept, resolved.node.kept kept, resolved.relationship.kept kept⟩

end Placement

def hopsFrom (source : NodePattern) : List Hop → List (NodePattern × Hop)
  | [] => []
  | hop :: rest => (source, hop) :: hopsFrom hop.node rest

def Placement.sourced (placement : Placement) : NodePattern × Hop :=
  (placement.source, placement.hop)

/-- The hops that leave a node, placed one after the other. -/
def placeHops (graph : Graph) (source : NodePattern) (left : Nat) :
    List Hop → Except BindingError (List Placement × Graph)
  | [] => .ok ([], graph)
  | hop :: rest => do
    let (right, graph) ← graph.mentionNode hop.node.labels hop.node.name .clause
    let direction :=
      Direction.ofArrows hop.relationship.leftArrow hop.relationship.rightArrow
    let (relation, graph) ← graph.mentionRelation hop.relationship.labels hop.relationship.name
      left right direction .clause
    let (others, graph) ← placeHops graph hop.node right rest
    return (⟨source, hop, left, right, relation⟩ :: others, graph)

def placePattern (graph : Graph) (pattern : Pattern) :
    Except BindingError (List Placement × Graph) := do
  let (start, graph) ← graph.mentionNode pattern.node.labels pattern.node.name .clause
  placeHops graph pattern.node start pattern.hops

def placePatterns (graph : Graph) : List Pattern → Except BindingError (List Placement × Graph)
  | [] => .ok ([], graph)
  | pattern :: rest => do
    let (first, graph) ← placePattern graph pattern
    let (others, graph) ← placePatterns graph rest
    return (first ++ others, graph)

def placeMatches (progress : Progress) :
    List MatchClause → Except CompilationError (List Placement × Progress)
  | [] => .ok ([], progress)
  | clause :: rest => do
    let (first, graph) ← (placePatterns progress.graph clause.patterns).mapError .binding
    let progress ← { progress with graph }.filter clause.predicate
    let (others, progress) ← placeMatches progress rest
    return (first ++ others, progress)

/-! The hops are placed the way the patterns are bound, and what comes out is the same graph. -/

theorem bindHops_eq (graph : Graph) (source : NodePattern) (left : Nat) (hops : List Hop) :
    bindHops graph left hops = (·.2) <$> placeHops graph source left hops := by
  induction hops generalizing graph source left with
  | nil => rfl
  | cons hop rest ih =>
    simp only [bindHops, placeHops, map_bind, ih _ hop.node, bind_pure_comp,
      Functor.map_map]

theorem bindPattern_eq (graph : Graph) (pattern : Pattern) :
    bindPattern graph pattern = (·.2) <$> placePattern graph pattern := by
  simp only [bindPattern, placePattern, map_bind, bindHops_eq _ pattern.node]

theorem bindPatterns_eq (graph : Graph) (patterns : List Pattern) :
    bindPatterns graph patterns = (·.2) <$> placePatterns graph patterns := by
  induction patterns generalizing graph with
  | nil => rfl
  | cons pattern rest ih =>
    rw [bindPatterns, List.foldlM_cons, bindPattern_eq, placePatterns]
    cases placePattern graph pattern with
    | error error => rfl
    | ok placed =>
      obtain ⟨first, next⟩ := placed
      have same := ih next
      rw [bindPatterns] at same
      simp only [map_bind, Except.map_ok, bind_pure_comp, Functor.map_map]
      exact same

theorem foldlM_addMatch_eq (progress : Progress) (clauses : List MatchClause) :
    clauses.foldlM Progress.addMatch progress = (·.2) <$> placeMatches progress clauses := by
  induction clauses generalizing progress with
  | nil => rfl
  | cons clause rest ih =>
    rw [List.foldlM_cons, Progress.addMatch, bindPatterns_eq, placeMatches]
    cases placePatterns progress.graph clause.patterns with
    | error error => rfl
    | ok placed =>
      obtain ⟨first, graph⟩ := placed
      simp only [Except.map_ok, Except.mapError, ok_bind, ih, map_bind, bind_pure_comp,
        Functor.map_map]

/-! ## Founding hops -/

def namesRelation (graph : Graph) (name : String) : Bool :=
  (graph.slot? name).any fun slot => slot.kind == .relation

/-- The hops whose relationship has no variable or is the first to use it, when `used` tells
which variables were used before. -/
def founding (used : String → Bool) : List Placement → List Placement
  | [] => []
  | placement :: rest =>
    (if placement.name.any used then [] else [placement]) ++
      founding (fun name => used name || placement.name == some name) rest

theorem founding_append (used : String → Bool) (first others : List Placement) :
    founding used (first ++ others) = founding used first ++
      founding (fun name => used name || first.any fun placement => placement.name == some name)
        others := by
  induction first generalizing used with
  | nil => simp [founding]
  | cons placement rest ih =>
    simp only [List.cons_append, founding, ih, List.append_assoc, List.any_cons, Bool.or_assoc]

/-! ## What hops do to a graph -/

/-- A graph has grown by some hops: its relations are those of the founding hops, and the
names of every hop mean the slots it speaks of. -/
structure Traced (before : Graph) (placements : List Placement) (after : Graph) : Prop where
  ends : after.relations.map endsOf =
    before.relations.map endsOf ++ (founding (namesRelation before) placements).map Placement.ends
  names : ∀ name, namesRelation after name =
    (namesRelation before name || placements.any fun placement => placement.name == some name)
  kept : KeepsNames before after
  resolved : ∀ placement ∈ placements, placement.Resolved after
  numbered : after.Numbered

theorem Traced.append {first second third : Graph} {placements others : List Placement}
    (left : Traced first placements second) (right : Traced second others third) :
    Traced first (placements ++ others) third where
  ends := by
    rw [right.ends, left.ends, founding_append, List.map_append, List.append_assoc,
      show namesRelation second = _ from funext left.names]
  names name := by rw [right.names, left.names, List.any_append, Bool.or_assoc]
  kept name slot bound := right.kept name slot (left.kept name slot bound)
  resolved placement isOne := by
    rcases List.mem_append.mp isOne with early | late
    · exact (left.resolved placement early).kept right.kept
    · exact right.resolved placement late
  numbered := right.numbered

theorem Traced.of_unscoped {before after : Graph} (numbered : before.Numbered)
    (same : after.unscoped = before.unscoped) : Traced before [] after where
  ends := by
    have relations : after.relations.map Graph.Relation.unscoped =
        before.relations.map Graph.Relation.unscoped := congrArg (·.relations) same
    have ends := congrArg (List.map endsOf) relations
    rw [List.map_map, List.map_map] at ends
    rw [founding, List.map_nil, List.append_nil]
    exact ends
  names name := by
    rw [namesRelation, namesRelation, Graph.slot?_eq_of_unscoped same, List.any_nil, Bool.or_false]
  kept := Graph.keepsNames_of_unscoped same
  resolved _ isOne := absurd isOne List.not_mem_nil
  numbered := numbered.of_unscoped same

section

variable {graph : Graph} {name : Option String} {slot : Slot}

theorem slot?_bind_self (unbound : ∀ given, name = some given → graph.slot? given = none)
    {given : String} (isGiven : name = some given) :
    (graph.bind name slot).slot? given = some slot := by
  rw [Graph.slot?_bind, unbound given isGiven, Option.none_or, if_pos isGiven]

theorem namesRelation_bind (unbound : ∀ given, name = some given → graph.slot? given = none)
    (given : String) : namesRelation (graph.bind name slot) given =
      (namesRelation graph given || (slot.kind == .relation && name == some given)) := by
  rw [namesRelation, namesRelation, Graph.slot?_bind]
  by_cases isGiven : name = some given
  · simp [isGiven, unbound given isGiven]
  · simp [isGiven]

end

theorem Traced.mentionNode {before after : Graph} (numbered : before.Numbered)
    {labels : List String} {name : Option String} {index : Nat}
    (mentioned : before.mentionNode labels name .clause = .ok (index, after)) :
    Traced before [] after ∧ Placement.Means after name .node index := by
  rcases Graph.mentionNode_ok mentioned with
    ⟨given, isGiven, bound, _, rfl⟩ | ⟨unbound, rfl, rfl⟩
  -- The node is there already: only the record of who mentions it changes.
  · have same := Graph.unscoped_addScope before ⟨.node, index⟩ .clause
    refine ⟨.of_unscoped numbered same, ?_⟩
    intro other isOther
    obtain rfl := Option.some.inj (isGiven.symm.trans isOther)
    rw [Graph.slot?_eq_of_unscoped same, bound]
  -- The node is new, and so is its name if it has one.
  · refine ⟨?_, fun given isGiven => slot?_bind_self (by exact unbound) isGiven⟩
    constructor
    case ends => cases properName name <;> simp [Graph.bind, founding]
    case names =>
      intro given
      rw [namesRelation_bind (by exact unbound)]
      simp [namesRelation, Graph.slot?]
    case kept =>
      intro given slot bound
      apply Graph.keepsNames_bind
      exact bound
    case resolved => exact fun _ isOne => absurd isOne List.not_mem_nil
    case numbered => exact (numbered.addNode labels [.clause]).bind _ _

theorem Traced.mentionRelation {before after : Graph} (numbered : before.Numbered)
    {source : NodePattern} {hop : Hop} {left right index : Nat}
    (meansSource : Placement.Means before source.name .node left)
    (meansNode : Placement.Means before hop.node.name .node right)
    (mentioned : before.mentionRelation hop.relationship.labels hop.relationship.name left right
      (.ofArrows hop.relationship.leftArrow hop.relationship.rightArrow) .clause =
        .ok (index, after)) :
    Traced before [⟨source, hop, left, right, index⟩] after := by
  obtain ⟨_, _, mentioned⟩ := Graph.mentionRelation_ok mentioned
  rcases mentioned with ⟨given, isGiven, bound, _, rfl⟩ | ⟨unbound, rfl, rfl⟩
  -- The variable is used again: the hop founds nothing, whatever its ends are.
  · have same := Graph.unscoped_addScope before ⟨.relation, index⟩ .clause
    have traced := Traced.of_unscoped numbered same
    have used : namesRelation before given = true := by simp [namesRelation, bound]
    constructor
    case ends => rw [traced.ends]; simp [founding, Placement.name, isGiven, used]
    case names =>
      intro name
      rw [traced.names]
      by_cases isName : given = name
      · simp [← isName, used]
      · simp [Placement.name, isGiven, isName]
    case kept => exact traced.kept
    case resolved =>
      intro placement isOne
      obtain rfl := List.mem_singleton.mp isOne
      refine ⟨meansSource.kept traced.kept, meansNode.kept traced.kept, ?_⟩
      intro name isName
      obtain rfl := Option.some.inj (isGiven.symm.trans isName)
      exact traced.kept _ _ bound
    case numbered => exact traced.numbered
  -- The hop founds a relation with its own ends.
  · have fresh : (properName hop.relationship.name).any (namesRelation before) = false := by
      cases isName : properName hop.relationship.name with
      | none => rfl
      | some name => simp [namesRelation, unbound name isName]
    have kept : ∀ relation : Graph.Relation, KeepsNames before
        (({ before with relations := before.relations ++ [relation] } : Graph).bind
          (properName hop.relationship.name) ⟨.relation, before.relations.length⟩) := by
      intro relation name slot bound
      apply Graph.keepsNames_bind
      exact bound
    constructor
    case ends =>
      rw [founding, founding, Placement.name, fresh]
      cases properName hop.relationship.name <;> simp [Graph.bind, endsOf, Placement.ends]
    case names =>
      intro given
      rw [namesRelation_bind (by exact unbound)]
      simp [namesRelation, Graph.slot?, Placement.name]
    case kept => exact kept _
    case resolved =>
      intro placement isOne
      obtain rfl := List.mem_singleton.mp isOne
      refine ⟨meansSource.kept (kept _), meansNode.kept (kept _), ?_⟩
      intro name isName
      exact slot?_bind_self (by exact unbound) isName
    case numbered => exact (numbered.addRelation hop.relationship.labels _ _ _ [.clause]).bind _ _

/-! Placing hops places each of them and nothing else. -/

theorem placeHops_ok {before after : Graph} (numbered : before.Numbered)
    {source : NodePattern} {left : Nat} {hops : List Hop} {placements : List Placement}
    (means : Placement.Means before source.name .node left)
    (placed : placeHops before source left hops = .ok (placements, after)) :
    placements.map Placement.sourced = hopsFrom source hops ∧ Traced before placements after := by
  induction hops generalizing before source left placements with
  | nil =>
    obtain ⟨rfl, rfl⟩ := Prod.mk.inj (Except.ok.inj placed)
    exact ⟨rfl, .of_unscoped numbered rfl⟩
  | cons hop rest ih =>
    obtain ⟨⟨right, withNode⟩, nodeMentioned, placed⟩ := bind_eq_ok.mp placed
    obtain ⟨⟨relation, withRelation⟩, relationMentioned, placed⟩ := bind_eq_ok.mp placed
    obtain ⟨⟨others, last⟩, placedRest, result⟩ := bind_eq_ok.mp placed
    obtain ⟨rfl, rfl⟩ := Prod.mk.inj (pure_eq_ok.mp result)
    obtain ⟨nodeTraced, meansNode⟩ := Traced.mentionNode numbered nodeMentioned
    have hopTraced := Traced.mentionRelation nodeTraced.numbered (means.kept nodeTraced.kept)
      meansNode relationMentioned
    -- The next hop leaves the node that this one leads to.
    obtain ⟨restHops, restTraced⟩ := ih hopTraced.numbered (meansNode.kept hopTraced.kept) placedRest
    refine ⟨?_, (nodeTraced.append hopTraced).append restTraced⟩
    rw [List.map_cons, restHops, hopsFrom, Placement.sourced]

theorem placePattern_ok {before after : Graph} (numbered : before.Numbered)
    {pattern : Pattern} {placements : List Placement}
    (placed : placePattern before pattern = .ok (placements, after)) :
    placements.map Placement.sourced = hopsFrom pattern.node pattern.hops ∧
      Traced before placements after := by
  obtain ⟨⟨start, withStart⟩, mentioned, placed⟩ := bind_eq_ok.mp placed
  obtain ⟨traced, means⟩ := Traced.mentionNode numbered mentioned
  obtain ⟨hops, restTraced⟩ := placeHops_ok traced.numbered means placed
  exact ⟨hops, traced.append restTraced⟩

theorem placePatterns_ok {before after : Graph} (numbered : before.Numbered)
    {patterns : List Pattern} {placements : List Placement}
    (placed : placePatterns before patterns = .ok (placements, after)) :
    placements.map Placement.sourced =
        patterns.flatMap (fun pattern => hopsFrom pattern.node pattern.hops) ∧
      Traced before placements after := by
  induction patterns generalizing before placements with
  | nil =>
    obtain ⟨rfl, rfl⟩ := Prod.mk.inj (Except.ok.inj placed)
    exact ⟨rfl, .of_unscoped numbered rfl⟩
  | cons pattern rest ih =>
    obtain ⟨⟨first, next⟩, placedFirst, placed⟩ := bind_eq_ok.mp placed
    obtain ⟨⟨others, last⟩, placedRest, result⟩ := bind_eq_ok.mp placed
    obtain ⟨rfl, rfl⟩ := Prod.mk.inj (pure_eq_ok.mp result)
    obtain ⟨hops, traced⟩ := placePattern_ok numbered placedFirst
    obtain ⟨restHops, restTraced⟩ := ih traced.numbered placedRest
    refine ⟨?_, traced.append restTraced⟩
    rw [List.map_append, hops, restHops, List.flatMap_cons]

theorem placeMatches_ok {before after : Progress} (numbered : before.graph.Numbered)
    {clauses : List MatchClause} {placements : List Placement}
    (placed : placeMatches before clauses = .ok (placements, after)) :
    placements.map Placement.sourced =
        clauses.flatMap (fun clause =>
          clause.patterns.flatMap fun pattern => hopsFrom pattern.node pattern.hops) ∧
      Traced before.graph placements after.graph := by
  induction clauses generalizing before placements with
  | nil =>
    obtain ⟨rfl, rfl⟩ := Prod.mk.inj (Except.ok.inj placed)
    exact ⟨rfl, .of_unscoped numbered rfl⟩
  | cons clause rest ih =>
    obtain ⟨⟨first, graph⟩, placedFirst, placed⟩ := bind_eq_ok.mp placed
    obtain ⟨filtered, isFiltered, placed⟩ := bind_eq_ok.mp placed
    obtain ⟨⟨others, last⟩, placedRest, result⟩ := bind_eq_ok.mp placed
    obtain ⟨rfl, rfl⟩ := Prod.mk.inj (pure_eq_ok.mp result)
    obtain ⟨hops, patternsTraced⟩ := placePatterns_ok numbered (mapError_eq_ok.mp placedFirst)
    have filterTraced := Traced.of_unscoped patternsTraced.numbered
      (Progress.filter_ok isFiltered).1
    have clauseTraced := patternsTraced.append filterTraced
    rw [List.append_nil] at clauseTraced
    obtain ⟨restHops, restTraced⟩ := ih clauseTraced.numbered placedRest
    refine ⟨?_, clauseTraced.append restTraced⟩
    rw [List.map_append, hops, restHops, List.flatMap_cons]

end Compilation

open Compilation

/-! ## Whole queries -/

/-- All hops of all patterns, each with the node that it leaves. -/
def Cypher.Query.hops (query : Query) : List (NodePattern × Hop) :=
  query.matchClauses.flatMap fun clause =>
    clause.patterns.flatMap fun pattern => hopsFrom pattern.node pattern.hops

/-- The hops of a query with their slots, in the order in which they take effect. -/
def Cypher.Query.placements (settings : Settings) (query : Query) :
    Except CompilationError (List Placement) :=
  (·.1) <$> placeMatches (.start settings) query.matchClauses

/-- Every hop of a query is placed.  The relations of the graph of the query have the ends of
the founding hops, and names mean the slots that the hops speak of. -/
theorem Cypher.Query.placements_ok {settings : Settings} {query : Query} {progress : Progress}
    (progressed : query.progress settings = .ok progress) :
    ∃ placements, query.placements settings = .ok placements ∧
      placements.map Placement.sourced = query.hops ∧
      Traced .empty placements progress.graph := by
  obtain ⟨matched, isMatched, passed⟩ := bind_eq_ok.mp progressed
  rw [foldlM_addMatch_eq] at isMatched
  cases placed : placeMatches (.start settings) query.matchClauses with
  | error error => simp [placed] at isMatched
  | ok outcome =>
    obtain ⟨placements, last⟩ := outcome
    rw [placed] at isMatched
    obtain rfl := Except.ok.inj isMatched
    obtain ⟨hops, traced⟩ := placeMatches_ok Graph.numbered_empty placed
    have same : SameGraph last progress :=
      foldlM_keeps SameGraph.refl SameGraph.trans (fun _ _ _ => Progress.addWith_sameGraph) passed
    have passedTraced := traced.append (.of_unscoped traced.numbered same)
    rw [List.append_nil] at passedTraced
    exact ⟨placements, by rw [Query.placements, placed]; rfl, hops, passedTraced⟩

end CypherSql
