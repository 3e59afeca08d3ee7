import CypherSql.Proofs.Compilation.Expressions
import CypherSql.Proofs.Compilation.Ties
import CypherSql.Proofs.Graph.Calls

/-! # What mentions answer

A mention fails for one of few reasons, and then nothing has changed.  Where it succeeds, either
its name is bound and one slot is mentioned in one more place, or one slot is added at the end.

* `Conflict`, `Refusal` — why a mention fails, in the order in which it is checked.
* `Rescoped`, `Added` — the two ways in which a graph changes.
* `Answers`, `AnswersAgain` — what each kind of mention returns.
* `mentions_answer` — every graph that calls bring about answers so, and a failure changes nothing.
-/

namespace CypherSql.Graph

open CypherSql.Compilation

/-! ## Failure -/

/-- A name is bound to a slot of the other kind, or to one of this kind whose labels are not those
that are given. -/
inductive Conflict (graph : Graph) (name : String) (kind : SlotKind) (labels : List String) :
    BindingError → Prop where
  | kind {slot : Slot} (bound : graph.slot? name = some slot) (other : slot.kind ≠ kind) :
      Conflict graph name kind labels (.kindConflict name slot.kind)
  | labels {index : Nat} (bound : graph.slot? name = some ⟨kind, index⟩)
      (there : index < graph.size kind) (present : labels ≠ [])
      (differ : ¬∀ label, label ∈ graph.labels ⟨kind, index⟩ ↔ label ∈ labels) :
      Conflict graph name kind labels (.typeConflict name)

/-- What the name of a mention, if it has one, conflicts with.  An empty name is none. -/
def NameConflict (graph : Graph) (name : Option String) (kind : SlotKind) (labels : List String)
    (error : BindingError) : Prop :=
  ∃ given, name = some given ∧ given ≠ "" ∧ Conflict graph given kind labels error

/-- The ends of a relation come first, the left one before the right one, and its name last. -/
inductive Refusal (graph : Graph) (labels : List String) (name : Option String) (left right : Nat) :
    BindingError → Prop where
  | left (missing : graph.nodes.length ≤ left) :
      Refusal graph labels name left right (.danglingEndpoint left graph.nodes.length)
  | right (leftThere : left < graph.nodes.length) (missing : graph.nodes.length ≤ right) :
      Refusal graph labels name left right (.danglingEndpoint right graph.nodes.length)
  | name {error : BindingError} (leftThere : left < graph.nodes.length)
      (rightThere : right < graph.nodes.length)
      (conflict : NameConflict graph name .relation labels error) :
      Refusal graph labels name left right error

theorem sameLabels_iff {left right : List String} :
    sameLabels left right = true ↔ ∀ label, label ∈ left ↔ label ∈ right := by
  simp only [sameLabels, Bool.and_eq_true, List.all_eq_true, List.contains_iff_mem]
  exact ⟨fun ⟨fromLeft, fromRight⟩ label => ⟨fromLeft label, fromRight label⟩,
    fun same => ⟨fun label => (same label).mp, fun label => (same label).mpr⟩⟩

theorem properName_eq_some_iff {name : Option String} {given : String} :
    properName name = some given ↔ name = some given ∧ given ≠ "" := by
  simp [properName, Option.filter_eq_some_iff]

section

variable {graph : Graph} {labels : List String} {scope : Scope} {error : BindingError}

theorem mentionAgain_eq_error_iff (wellFormed : graph.WellFormed) {name : String}
    {kind : SlotKind} : graph.mentionAgain name kind labels scope = .error error ↔
      Conflict graph name kind labels error := by
  unfold mentionAgain
  cases bound : graph.slot? name with
  | none =>
    refine iff_of_false nofun ?_
    rintro (⟨found, _⟩ | ⟨found, _⟩) <;> nomatch bound.symm.trans found
  | some slot =>
    have there := wellFormed.index_lt bound
    obtain ⟨slotKind, index⟩ := slot
    dsimp only
    split
    · next other =>
      constructor
      · rintro ⟨⟩
        exact .kind bound other
      · rintro (⟨found, _⟩ | ⟨found, _⟩)
        · obtain rfl := Option.some.inj (bound.symm.trans found)
          rfl
        · exact absurd (congrArg Slot.kind (Option.some.inj (bound.symm.trans found))) other
    · next sameKind =>
      obtain rfl : slotKind = kind := Decidable.not_not.mp sameKind
      -- Labels are compared only where some are given.
      have differ : (!labels.isEmpty && !sameLabels (graph.labels ⟨slotKind, index⟩) labels) = true ↔
          labels ≠ [] ∧ ¬∀ label, label ∈ graph.labels ⟨slotKind, index⟩ ↔ label ∈ labels := by
        rw [← sameLabels_iff]
        simp
      split
      · next conflicting =>
        obtain ⟨present, differ⟩ := differ.mp conflicting
        constructor
        · rintro ⟨⟩
          exact .labels bound there present differ
        · rintro (⟨found, other⟩ | _)
          · obtain rfl := Option.some.inj (bound.symm.trans found)
            contradiction
          · rfl
      · next agreeing =>
        refine iff_of_false nofun ?_
        rintro (⟨found, other⟩ | ⟨found, _, present, unequal⟩)
        · obtain rfl := Option.some.inj (bound.symm.trans found)
          contradiction
        · obtain ⟨-, rfl⟩ := Slot.mk.inj (Option.some.inj (bound.symm.trans found))
          exact agreeing (differ.mpr ⟨present, unequal⟩)

theorem mentionAgain?_eq_error_iff (wellFormed : graph.WellFormed) {name : Option String}
    {kind : SlotKind} :
    graph.mentionAgain? (properName name) kind labels scope = .error error ↔
      NameConflict graph name kind labels error := by
  unfold NameConflict
  simp only [← and_assoc, ← properName_eq_some_iff]
  cases properName name with
  | none => simp [mentionAgain?]
  | some given => simp [mentionAgain?, mentionAgain_eq_error_iff wellFormed]

theorem mentionNode_eq_error_iff (wellFormed : graph.WellFormed) {name : Option String} :
    graph.mentionNode labels name scope = .error error ↔
      NameConflict graph name .node labels error := by
  -- Nothing fails after the name has been looked up.
  refine (bind_eq_error_iff_of_ne ?_).trans (mentionAgain?_eq_error_iff wellFormed)
  rintro ⟨_ | _, _⟩ ⟨⟩

theorem requireEndpoint_eq_error_iff {index : Nat} :
    graph.requireEndpoint index = .error error ↔
      graph.nodes.length ≤ index ∧ error = .danglingEndpoint index graph.nodes.length := by
  unfold requireEndpoint
  split
  · next there => exact iff_of_false nofun fun missing => by omega
  · next missing =>
    rw [Except.error.injEq, eq_comm]
    exact (and_iff_right (Nat.le_of_not_lt missing)).symm

theorem mentionRelation_eq_error_iff (wellFormed : graph.WellFormed) {name : Option String}
    {left right : Nat} {direction : Direction} :
    graph.mentionRelation labels name left right direction scope = .error error ↔
      Refusal graph labels name left right error := by
  unfold mentionRelation
  cases leftEnd : graph.requireEndpoint left with
  | error leftError =>
    obtain ⟨missing, rfl⟩ := requireEndpoint_eq_error_iff.mp leftEnd
    constructor
    · rintro ⟨⟩
      exact .left missing
    · rintro (_ | ⟨there, _⟩ | ⟨there, _, _⟩)
      · rfl
      all_goals omega
  | ok =>
    have leftThere := lt_of_requireEndpoint leftEnd
    cases rightEnd : graph.requireEndpoint right with
    | error rightError =>
      obtain ⟨missing, rfl⟩ := requireEndpoint_eq_error_iff.mp rightEnd
      constructor
      · rintro ⟨⟩
        exact .right leftThere missing
      · rintro (missing | _ | ⟨_, there, _⟩)
        · omega
        · rfl
        · omega
    | ok =>
      have rightThere := lt_of_requireEndpoint rightEnd
      have refusal : Refusal graph labels name left right error ↔
          NameConflict graph name .relation labels error := by
        refine ⟨?_, .name leftThere rightThere⟩
        rintro (missing | ⟨_, missing⟩ | ⟨_, _, conflict⟩)
        · omega
        · omega
        · exact conflict
      rw [refusal, ok_bind, ok_bind]
      refine (bind_eq_error_iff_of_ne ?_).trans (mentionAgain?_eq_error_iff wellFormed)
      rintro ⟨_ | _, _⟩ ⟨⟩

end

/-! ## Success -/

/-- Only the scopes of one slot have changed, and that by one that is there now. -/
structure Rescoped (graph : Graph) (slot : Slot) (scope : Scope) (after : Graph) : Prop where
  unscoped : after.unscoped = graph.unscoped
  others : ∀ other, other ≠ slot → after.scopes other = graph.scopes other
  scopes : ∀ given, given ∈ after.scopes slot ↔ given = scope ∨ given ∈ graph.scopes slot

/-- One slot stands behind all others, under a name that was free or under none. -/
structure Added (graph : Graph) (name : Option String) (slot : Slot) (nodes : List Node)
    (relations : List Relation) (after : Graph) : Prop where
  number : slot.index = graph.size slot.kind
  nodes : after.nodes = graph.nodes ++ nodes
  relations : after.relations = graph.relations ++ relations
  names : ∀ given, after.slot? given =
    if name = some given ∧ given ≠ "" then some slot else graph.slot? given

theorem scope_eq_of_not_before {left right : Scope} (notBefore : left.before right = false)
    (notBehind : right.before left = false) : left = right := by
  cases left <;> cases right <;> simp [Scope.before] at notBefore notBehind ⊢
  omega

theorem mem_insertOrdered_scope {scope other : Scope} {set : List Scope} :
    scope ∈ insertOrdered Scope.before other set ↔ scope = other ∨ scope ∈ set := by
  refine ⟨mem_of_mem_insertOrdered, ?_⟩
  rintro (rfl | early)
  · induction set with
    | nil => exact List.mem_singleton_self scope
    | cons first rest ih =>
      unfold insertOrdered
      split
      · exact List.mem_cons_self
      · next notBefore =>
        split
        · exact List.mem_cons_of_mem _ ih
        · next notBehind =>
          obtain rfl := scope_eq_of_not_before (by simpa using notBefore) (by simpa using notBehind)
          exact List.mem_cons_self
  · exact subset_insertOrdered early

theorem rescoped_addScope {graph : Graph} {slot : Slot} (scope : Scope)
    (there : slot.index < graph.size slot.kind) :
    Rescoped graph slot scope (graph.addScope slot scope) := by
  refine ⟨unscoped_addScope graph slot scope, ?others, ?scopes⟩
  case others =>
    rintro ⟨kind, index⟩ other
    obtain ⟨slotKind, slotIndex⟩ := slot
    cases kind <;> cases slotKind <;> simp only [scopes, addScope, ne_eq, Slot.mk.injEq, true_and]
      at other ⊢
    all_goals simp [Ne.symm other]
  case scopes =>
    intro given
    obtain ⟨kind, index⟩ := slot
    cases kind <;>
    · simp only [size] at there
      simp [scopes, addScope, there, mem_insertOrdered_scope]

/-- Every kind of slot is added in the same way. -/
theorem added_bind {graph grown : Graph} {name : Option String} {slot : Slot} {nodes : List Node}
    {relations : List Relation} (sameNames : grown.bound = graph.bound)
    (number : slot.index = graph.size slot.kind) (addedNodes : grown.nodes = graph.nodes ++ nodes)
    (addedRelations : grown.relations = graph.relations ++ relations)
    (free : ∀ given, properName name = some given → graph.slot? given = none) :
    Added graph name slot nodes relations (grown.bind (properName name) slot) := by
  refine ⟨number, ?nodes, ?relations, ?names⟩
  case nodes => cases properName name <;> exact addedNodes
  case relations => cases properName name <;> exact addedRelations
  case names =>
    intro given
    have same : grown.slot? given = graph.slot? given := by rw [slot?, slot?, sameNames]
    rw [slot?_bind, same]
    by_cases isName : properName name = some given
    · rw [if_pos isName, if_pos (properName_eq_some_iff.mp isName), free given isName,
        Option.none_or]
    · rw [if_neg isName, if_neg (properName_eq_some_iff.not.mp isName), Option.or_none]

/-- What a mention returns that may add a slot.  It fails for the given reasons only.  A name that
is bound already gives its slot, and otherwise there is one slot more. -/
structure Answers (graph : Graph) (name : Option String) (kind : SlotKind) (scope : Scope)
    (refused : BindingError → Prop) (nodes : List Node) (relations : List Relation)
    (result : Except BindingError (Nat × Graph)) : Prop where
  fails : ∀ error, result = .error error ↔ refused error
  again : ∀ index after, result = .ok (index, after) → ∀ given slot, name = some given →
    given ≠ "" → graph.slot? given = some slot →
      slot = ⟨kind, index⟩ ∧ Rescoped graph slot scope after
  new : ∀ index after, result = .ok (index, after) →
    (∀ given, name = some given → given ≠ "" → graph.slot? given = none) →
      Added graph name ⟨kind, index⟩ nodes relations after

/-- What a mention returns that adds no slot. -/
structure AnswersAgain (graph : Graph) (name : String) (kind : SlotKind) (labels : List String)
    (scope : Scope) (result : Except BindingError (Option Nat × Graph)) : Prop where
  fails : ∀ error, result = .error error ↔ Conflict graph name kind labels error
  bound : ∀ found after, result = .ok (found, after) → ∀ slot, graph.slot? name = some slot →
    slot.kind = kind ∧ found = some slot.index ∧ Rescoped graph slot scope after
  unbound : graph.slot? name = none → result = .ok (none, graph)

section

variable {graph : Graph} (wellFormed : graph.WellFormed)

include wellFormed

/-- Both kinds of mention end in one of two ways. -/
theorem answers_of_outcome {name : Option String} {kind : SlotKind} {scope : Scope}
    {refused : BindingError → Prop} {nodes : List Node} {relations : List Relation}
    {result : Except BindingError (Nat × Graph)}
    (fails : ∀ error, result = .error error ↔ refused error)
    (outcome : ∀ index after, result = .ok (index, after) →
      (∃ given, properName name = some given ∧ graph.slot? given = some ⟨kind, index⟩ ∧
        after = graph.addScope ⟨kind, index⟩ scope) ∨
      (∀ given, properName name = some given → graph.slot? given = none) ∧
        Added graph name ⟨kind, index⟩ nodes relations after) :
    Answers graph name kind scope refused nodes relations result := by
  refine ⟨fails, ?again, ?new⟩
  case again =>
    intro index after succeeds given slot isGiven proper bound
    have isName := properName_eq_some_iff.mpr ⟨isGiven, proper⟩
    rcases outcome index after succeeds with ⟨other, isOther, found, rfl⟩ | ⟨free, _⟩
    · obtain rfl := Option.some.inj (isName.symm.trans isOther)
      obtain rfl := Option.some.inj (bound.symm.trans found)
      exact ⟨rfl, rescoped_addScope scope (wellFormed.index_lt bound)⟩
    · nomatch bound.symm.trans (free given isName)
  case new =>
    intro index after succeeds free
    rcases outcome index after succeeds with ⟨other, isOther, found, _⟩ | ⟨_, added⟩
    · obtain ⟨isGiven, proper⟩ := properName_eq_some_iff.mp isOther
      nomatch found.symm.trans (free other isGiven proper)
    · exact added

theorem mentionNode_answers (labels : List String) (name : Option String) (scope : Scope) :
    Answers graph name .node scope (NameConflict graph name .node labels)
      [⟨graph.nodes.length, labels, [scope]⟩] [] (graph.mentionNode labels name scope) := by
  apply answers_of_outcome wellFormed fun error => mentionNode_eq_error_iff wellFormed
  intro index after succeeds
  rcases mentionNode_ok succeeds with ⟨given, isName, bound, _, rfl⟩ | ⟨free, rfl, rfl⟩
  · exact .inl ⟨given, isName, bound, rfl⟩
  · exact .inr ⟨free, added_bind rfl rfl rfl (List.append_nil _).symm free⟩

theorem mentionRelation_answers (labels : List String) (name : Option String) (left right : Nat)
    (direction : Direction) (scope : Scope) :
    Answers graph name .relation scope (Refusal graph labels name left right) []
      [⟨graph.relations.length, labels, left, right, direction, [scope]⟩]
      (graph.mentionRelation labels name left right direction scope) := by
  apply answers_of_outcome wellFormed fun error => mentionRelation_eq_error_iff wellFormed
  intro index after succeeds
  obtain ⟨_, _, outcome⟩ := mentionRelation_ok succeeds
  rcases outcome with ⟨given, isName, bound, _, rfl⟩ | ⟨free, rfl, rfl⟩
  · exact .inl ⟨given, isName, bound, rfl⟩
  · exact .inr ⟨free, added_bind rfl rfl (List.append_nil _).symm rfl free⟩

theorem mentionAgain_answers (name : String) (kind : SlotKind) (labels : List String)
    (scope : Scope) : AnswersAgain graph name kind labels scope
      (graph.mentionAgain name kind labels scope) := by
  refine ⟨fun error => mentionAgain_eq_error_iff wellFormed, ?bound, ?unbound⟩
  case bound =>
    intro found after succeeds slot bound
    rcases mentionAgain_ok succeeds with ⟨unbound, _⟩ | ⟨other, isOther, sameKind, _, rfl, rfl⟩
    · nomatch bound.symm.trans unbound
    · obtain rfl := Option.some.inj (bound.symm.trans isOther)
      exact ⟨sameKind, rfl, rescoped_addScope scope (wellFormed.index_lt bound)⟩
  case unbound =>
    intro unbound
    rw [mentionAgain, unbound]

end

/-! ## Every graph -/

/-- A call that fails leaves the graph as it was. -/
theorem after_of_error {graph : Graph} {call : Call} {error : BindingError}
    (fails : call.result graph = .error error) : graph.after call = graph := by
  rw [after, fails]

/-- Where the graph is changed in place, a failure leaves everything in its place. -/
theorem mentionOuter_of_error {name : Option String} {kind : SlotKind} {labels : List String}
    {scope : Scope} {state after : CompilerState} {error : Sql.GenerationError}
    (fails : (mentionOuter name kind labels scope).run.run state = (.error error, after)) :
    after = state := by
  rw [run_mentionOuter] at fails
  cases mentioned : state.graph.mentionAgain? name kind labels scope with
  | error => exact (congrArg Prod.snd (by simpa [mentioned] using fails)).symm
  | ok => cases congrArg Prod.fst (by simpa [mentioned] using fails)

/-- What a graph answers to whatever it is asked.  Where something fails, nothing has changed, also
where the graph is kept in a state that outlives the failure. -/
structure Answering (graph : Graph) : Prop where
  node : ∀ labels name scope,
    Answers graph name .node scope (NameConflict graph name .node labels)
      [⟨graph.nodes.length, labels, [scope]⟩] [] (graph.mentionNode labels name scope)
  relation : ∀ labels name left right direction scope,
    Answers graph name .relation scope (Refusal graph labels name left right) []
      [⟨graph.relations.length, labels, left, right, direction, [scope]⟩]
      (graph.mentionRelation labels name left right direction scope)
  again : ∀ name kind labels scope,
    AnswersAgain graph name kind labels scope (graph.mentionAgain name kind labels scope)
  failure : ∀ call error, call.result graph = .error error → graph.after call = graph
  inPlace : ∀ name kind labels scope error before after, before.graph = graph →
    (mentionOuter name kind labels scope).run.run before = (.error error, after) → after = before

/-- Every graph that calls bring about answers a mention of a node, of a relation, or of a name
that may be bound. -/
theorem mentions_answer (calls : List Call) : Answering (empty.run calls) := by
  have wellFormed : (empty.run calls).WellFormed := wellFormed_empty.run calls
  constructor
  case node => exact mentionNode_answers wellFormed
  case relation => exact mentionRelation_answers wellFormed
  case again => exact mentionAgain_answers wellFormed
  case failure => exact fun call error => after_of_error
  case inPlace => exact fun _ _ _ _ _ _ _ _ => mentionOuter_of_error

end CypherSql.Graph
