import CypherSql.Compilation.Expression
import CypherSql.Proofs.Graph.Growth

/-! # What compiling an expression does

The state is changed by tests for patterns only, and what comes out is made in one of a few
ways.  So a relation between states that holds across every such test holds across every
expression, also where compilation fails, and a property that each of these ways gives to its
result is a property of everything that is compiled.

* `Meets` — a computation relates the state before it to the one behind it, and its value has a
  property.
* `Made` — a property that all ways of making an expression give.
* `compile_meets` — an expression does what its tests for patterns do, and is made in these ways.
* `compile_sameSlots` — an expression adds no slot and binds no name.
-/

namespace CypherSql.Compilation

open CypherSql.Cypher
open CypherSql.Graph (Slot SlotKind Scope)
open CypherSql.Sql (Aggregate Fragment GenerationError Lexeme Malformation)

/-- Whatever state a computation starts in, it is related to the state behind it, and the value
has a property if there is one. -/
def Meets {α : Type} (R : CompilerState → CompilerState → Prop) (P : α → Prop)
    (computation : Compile α) : Prop :=
  ∀ state, R state (computation.run.run state).2 ∧
    ∀ value, (computation.run.run state).1 = .ok value → P value

/-- The part of `Meets` that is about states. -/
abbrev Relates {α : Type} (R : CompilerState → CompilerState → Prop) (computation : Compile α) :
    Prop :=
  Meets R (fun _ => True) computation

section

variable {α β : Type} {R : CompilerState → CompilerState → Prop} {P : β → Prop}

/-! ## Steps of a computation -/

theorem run_bind (first : Compile α) (next : α → Compile β) (state : CompilerState) :
    (first >>= next).run.run state =
      match first.run.run state with
      | (.ok value, state) => (next value).run.run state
      | (.error error, state) => (.error error, state) := by
  -- A failure of the first step keeps the state that it leaves behind.
  change ExceptT.bindCont next (first state).1 (first state).2 = _
  change _ = match first state with
    | (.ok value, state) => (next value).run.run state
    | (.error error, state) => (.error error, state)
  rcases first state with ⟨_ | _, _⟩ <;> rfl

theorem meets_bind (trans : ∀ a b c, R a b → R b c → R a c) {Q : α → Prop} {first : Compile α}
    {next : α → Compile β} (meetsFirst : Meets R Q first)
    (meetsNext : ∀ value, Q value → Meets R P (next value)) : Meets R P (first >>= next) := by
  intro state
  have behind := meetsFirst state
  rw [run_bind]
  generalize first.run.run state = outcome at behind ⊢
  obtain ⟨related, holds⟩ := behind
  obtain ⟨_ | value, after⟩ := outcome
  · exact ⟨related, fun _ same => nomatch same⟩
  · obtain ⟨relatedNext, holdsNext⟩ := meetsNext value (holds value rfl) after
    exact ⟨trans state after _ related relatedNext, holdsNext⟩

/-- Where nothing need be known of the first value. -/
theorem meets_bind_any (trans : ∀ a b c, R a b → R b c → R a c) {first : Compile α}
    {next : α → Compile β} (relatesFirst : Relates R first)
    (meetsNext : ∀ value, Meets R P (next value)) : Meets R P (first >>= next) :=
  meets_bind trans relatesFirst fun value _ => meetsNext value

variable (refl : ∀ state, R state state)

include refl

theorem meets_pure {value : β} (holds : P value) : Meets R P (pure value : Compile β) := by
  intro state
  refine ⟨refl state, fun result same => ?_⟩
  obtain rfl := Except.ok.inj same
  exact holds

theorem meets_throw (error : GenerationError) : Meets R P (throw error : Compile β) :=
  fun state => ⟨refl state, fun _ same => nomatch same⟩

theorem meets_refuse (shape : Malformation) : Meets R P (refuse shape : Compile β) :=
  meets_throw refl _

theorem relates_get : Relates R (get : Compile CompilerState) :=
  fun state => ⟨refl state, fun _ _ => trivial⟩

theorem relates_requireNoPath (atom : Atom) (path : List String) :
    Relates R (requireNoPath atom path) := by
  unfold requireNoPath
  split
  · exact meets_pure refl trivial
  · exact meets_refuse refl _

end

/-! ## Ways of making an expression -/

/-- A property of everything that is made in one of the ways in which expressions are compiled,
given that the expressions behind names have it. -/
structure Made (bindings : Bindings) (P : Compiled → Prop) : Prop where
  scalar : ∀ sql, P (.scalar sql)
  parts : ∀ sql parts, (∀ part ∈ parts, P part) → P (.ofParts sql parts)
  disjunction : ∀ parts, (∀ part ∈ parts, P part) → P (.disjunction parts)
  slot : ∀ slot, P (.ofSlot slot)
  property : ∀ slot path, P (.ofProperty slot path)
  aggregate : ∀ aggregate argument parts, (∀ part ∈ parts, P part) →
    P (.ofAggregate aggregate argument parts)
  reading : ∀ sql reads, P { Compiled.scalar sql with reads }
  named : ∀ entry ∈ bindings.names, P entry.2

variable {bindings : Bindings} {P : Compiled → Prop}

namespace Made

variable (made : Made bindings P)

include made

theorem compileSlot (slot : Slot) (path : List String) : P (compileSlot slot path) := by
  unfold Compilation.compileSlot
  split
  · exact made.slot slot
  · exact made.property slot path

theorem find? {name : String} {compiled : Compiled}
    (found : bindings.find? name = some compiled) : P compiled := by
  obtain ⟨entry, isEntry, rfl⟩ := Option.map_eq_some_iff.mp found
  exact made.named entry (List.mem_of_find?_eq_some isEntry)

theorem behind {compiled : Compiled} (holds : P compiled) (condition : Bool) (operator : Lexeme) :
    P (if condition then .behind operator compiled else compiled) := by
  split
  · exact made.parts _ _ (List.forall_mem_singleton.mpr holds)
  · exact holds

theorem steps {first : Compiled} (holds : P first) {rest : List (Lexeme × Compiled)}
    (each : ∀ entry ∈ rest, P entry.2) : P (.steps first rest) :=
  made.parts _ _ (List.forall_mem_cons.mpr ⟨holds, List.forall_mem_map.mpr each⟩)

theorem stepsIfAny {first : Compiled} (holds : P first) {rest : List (Lexeme × Compiled)}
    (each : ∀ entry ∈ rest, P entry.2) : P (if rest.isEmpty then first else .steps first rest) := by
  split
  · exact holds
  · exact made.steps holds each

theorem bind {compiled : Compiled} (holds : P compiled) (name : String) :
    Made (bindings.bind name compiled) P :=
  { made with
    named := by
      intro entry isEntry
      rcases List.mem_cons.mp isEntry with rfl | earlier
      · exact holds
      · exact made.named entry earlier }

end Made

/-! ## Whole expressions -/

/-- A property that all ways of making an expression give, and a relation between states that is
reflexive and transitive and holds across every test for a pattern. -/
structure Law (bindings : Bindings) (R : CompilerState → CompilerState → Prop)
    (P : Compiled → Prop) : Prop extends Made bindings P where
  refl : ∀ state, R state state
  trans : ∀ a b c, R a b → R b c → R a c
  test : ∀ pattern, Relates R (existence bindings.settings pattern)

variable {R : CompilerState → CompilerState → Prop} (law : Law bindings R P)

section

include law

theorem meets_compileName (name : String) (path : List String) :
    Meets R P (compileName bindings name path) := by
  unfold compileName
  apply meets_bind_any law.trans (relates_get law.refl)
  intro state
  split
  · exact meets_pure law.refl (law.compileSlot _ path)
  · split
    · next compiled isCompiled =>
      split
      · exact meets_pure law.refl (law.find? isCompiled)
      · split
        · exact meets_pure law.refl (law.compileSlot _ path)
        · exact meets_throw law.refl _
    · split
      · exact meets_pure law.refl (law.scalar _)
      · exact meets_throw law.refl _

theorem meets_applyTests {subject : Compiled} (holds : P subject)
    (tests : List (StringOperator × Term)) : Meets R P (applyTests subject tests) := by
  unfold applyTests
  split
  · exact meets_pure law.refl holds
  · split
    · exact meets_pure law.refl (law.parts _ _ (List.forall_mem_singleton.mpr holds))
    · exact meets_throw law.refl _
  · exact meets_refuse law.refl _

theorem meets_count {argument : Compiled} (holds : P argument) (distinct : Bool) :
    Meets R P (count argument distinct) := by
  unfold count
  split
  · exact meets_refuse law.refl _
  · exact meets_pure law.refl (law.aggregate _ _ _ (List.forall_mem_singleton.mpr holds))

/-- A test for a pattern is a single value that reads some slots, whatever it does to the
state. -/
theorem meets_existence (pattern : Pattern) :
    Meets R P (existence bindings.settings pattern) := by
  -- The two parts are proved apart, since the law speaks of states only.
  have yields : Meets (fun _ _ => True) P (existence bindings.settings pattern) := by
    have anything : ∀ {α : Type} (computation : Compile α), Relates (fun _ _ => True) computation :=
      fun _ _ => ⟨trivial, fun _ _ => trivial⟩
    apply meets_bind_any (fun _ _ _ _ _ => trivial) (anything _)
    intro number
    apply meets_bind_any (fun _ _ _ _ _ => trivial) (anything _)
    intro start
    apply meets_bind_any (fun _ _ _ _ _ => trivial) (anything _)
    intro embedding
    exact meets_pure (fun _ => trivial) (law.reading _ _)
  exact fun state => ⟨(law.test pattern state).1, (yields state).2⟩

end

section

include law

mutual

theorem compile_meets : ∀ expression, Meets R P (compile bindings expression)
  | ⟨[]⟩ => meets_refuse law.refl _
  | ⟨[only]⟩ => compileExclusion_meets true only
  | ⟨first :: second :: rest⟩ =>
    meets_bind law.trans (compileExclusions_meets (first :: second :: rest)) fun parts each =>
      meets_pure law.refl (law.disjunction parts each)

theorem compileExclusions_meets :
    ∀ operands, Meets R (fun parts => ∀ part ∈ parts, P part) (compileExclusions bindings operands)
  | [] => meets_pure law.refl (List.forall_mem_nil _)
  | operand :: rest =>
    meets_bind law.trans (compileExclusion_meets false operand) fun _ holds =>
      meets_bind law.trans (compileExclusions_meets rest) fun _ each =>
        meets_pure law.refl (List.forall_mem_cons.mpr ⟨holds, each⟩)

theorem compileExclusion_meets (whole : Bool) :
    ∀ operand, Meets R P (compileExclusion bindings whole operand)
  | ⟨[]⟩ => meets_refuse law.refl _
  | ⟨[only]⟩ => compileConjunction_meets whole only
  | ⟨_ :: _ :: _⟩ => meets_refuse law.refl _

theorem compileConjunction_meets (whole : Bool) :
    ∀ operand, Meets R P (compileConjunction bindings whole operand)
  | ⟨[]⟩ => meets_refuse law.refl _
  | ⟨[only]⟩ => compileComparison_meets whole only
  | ⟨first :: second :: rest⟩ =>
    meets_bind law.trans (compileComparisons_meets (first :: second :: rest)) fun parts each =>
      meets_pure law.refl (law.parts _ parts each)

theorem compileComparisons_meets : ∀ operands,
    Meets R (fun parts => ∀ part ∈ parts, P part) (compileComparisons bindings operands)
  | [] => meets_pure law.refl (List.forall_mem_nil _)
  | operand :: rest =>
    meets_bind law.trans (compileComparison_meets false operand) fun _ holds =>
      meets_bind law.trans (compileComparisons_meets rest) fun _ each =>
        meets_pure law.refl (List.forall_mem_cons.mpr ⟨holds, each⟩)

theorem compileComparison_meets (whole : Bool) :
    ∀ operand, Meets R P (compileComparison bindings whole operand)
  | ⟨_, left, rest⟩ =>
    meets_bind law.trans (compileAddition_meets _ left) fun _ holds =>
      meets_bind law.trans (compileCompared_meets holds rest) fun _ holds =>
        meets_pure law.refl (law.behind holds _ _)

theorem compileCompared_meets {first : Compiled} (holds : P first) :
    ∀ rest, Meets R P (compileCompared bindings first rest)
  | [] => meets_pure law.refl holds
  | [(_, right)] =>
    meets_bind law.trans (compileAddition_meets false right) fun _ second =>
      meets_pure law.refl (law.steps holds (List.forall_mem_singleton.mpr second))
  | _ :: _ :: _ => meets_refuse law.refl _

theorem compileAddition_meets (whole : Bool) :
    ∀ operand, Meets R P (compileAddition bindings whole operand)
  | ⟨first, rest⟩ =>
    meets_bind law.trans (compileMultiplication_meets _ first) fun _ holds =>
      meets_bind law.trans (compileAdded_meets rest) fun _ each =>
        meets_pure law.refl (law.stepsIfAny holds each)

theorem compileAdded_meets : ∀ rest,
    Meets R (fun entries => ∀ entry ∈ entries, P entry.2) (compileAdded bindings rest)
  | [] => meets_pure law.refl (List.forall_mem_nil _)
  | (_, operand) :: rest =>
    meets_bind law.trans (compileMultiplication_meets false operand) fun _ holds =>
      meets_bind law.trans (compileAdded_meets rest) fun _ each =>
        meets_pure law.refl (List.forall_mem_cons.mpr ⟨holds, each⟩)

theorem compileMultiplication_meets (whole : Bool) :
    ∀ operand, Meets R P (compileMultiplication bindings whole operand)
  | ⟨first, rest⟩ =>
    meets_bind law.trans (compilePower_meets _ first) fun _ holds =>
      meets_bind law.trans (compileMultiplied_meets rest) fun _ each =>
        meets_pure law.refl (law.stepsIfAny holds each)

theorem compileMultiplied_meets : ∀ rest,
    Meets R (fun entries => ∀ entry ∈ entries, P entry.2) (compileMultiplied bindings rest)
  | [] => meets_pure law.refl (List.forall_mem_nil _)
  | (_, operand) :: rest =>
    meets_bind law.trans (compilePower_meets false operand) fun _ holds =>
      meets_bind law.trans (compileMultiplied_meets rest) fun _ each =>
        meets_pure law.refl (List.forall_mem_cons.mpr ⟨holds, each⟩)

theorem compilePower_meets (whole : Bool) :
    ∀ operand, Meets R P (compilePower bindings whole operand)
  | ⟨[]⟩ => meets_refuse law.refl _
  | ⟨[only]⟩ => compileSigned_meets whole only
  | ⟨first :: second :: rest⟩ =>
    meets_bind law.trans (compileSigned_meets false first) fun _ holds =>
      meets_bind law.trans (compileSigneds_meets (second :: rest)) fun _ each =>
        meets_pure law.refl (law.parts _ _ (List.forall_mem_cons.mpr ⟨holds, each⟩))

theorem compileSigneds_meets :
    ∀ operands, Meets R (fun parts => ∀ part ∈ parts, P part) (compileSigneds bindings operands)
  | [] => meets_pure law.refl (List.forall_mem_nil _)
  | operand :: rest =>
    meets_bind law.trans (compileSigned_meets false operand) fun _ holds =>
      meets_bind law.trans (compileSigneds_meets rest) fun _ each =>
        meets_pure law.refl (List.forall_mem_cons.mpr ⟨holds, each⟩)

theorem compileSigned_meets (whole : Bool) :
    ∀ operand, Meets R P (compileSigned bindings whole operand)
  | ⟨_, term, tests⟩ =>
    meets_bind law.trans (compileTerm_meets _ term) fun _ holds =>
      meets_bind law.trans (meets_applyTests law holds tests) fun _ holds =>
        meets_pure law.refl (law.behind holds _ _)

theorem compileTerm_meets (whole : Bool) :
    ∀ term, Meets R P (compileTerm bindings whole term)
  | ⟨.name name, path⟩ => meets_compileName law name path
  | ⟨.literal value, path⟩ =>
    meets_bind_any law.trans (relates_requireNoPath law.refl _ path) fun _ =>
      compileAtom_meets whole (.literal value)
  | ⟨.call name distinct arguments, path⟩ =>
    meets_bind_any law.trans (relates_requireNoPath law.refl _ path) fun _ =>
      compileAtom_meets whole (.call name distinct arguments)
  | ⟨.countAll, path⟩ =>
    meets_bind_any law.trans (relates_requireNoPath law.refl _ path) fun _ =>
      compileAtom_meets whole .countAll
  | ⟨.parenthesized inner, path⟩ =>
    meets_bind_any law.trans (relates_requireNoPath law.refl _ path) fun _ =>
      compileAtom_meets whole (.parenthesized inner)
  | ⟨.pattern pattern, path⟩ =>
    meets_bind_any law.trans (relates_requireNoPath law.refl _ path) fun _ =>
      compileAtom_meets whole (.pattern pattern)

theorem compileAtom_meets (whole : Bool) : ∀ atom, Meets R P (compileAtom bindings whole atom)
  | .name name => meets_compileName law name []
  | .literal _ => meets_pure law.refl (law.scalar _)
  | .call name distinct arguments => by
    rw [compileAtom]
    split
    · exact compileCount_meets distinct arguments
    · exact meets_throw law.refl _
  | .countAll => meets_pure law.refl (law.aggregate _ _ _ (List.forall_mem_nil _))
  | .parenthesized inner =>
    meets_bind law.trans (compile_meets inner) fun _ holds => by
      apply meets_pure law.refl
      split
      · exact holds
      · exact law.parts _ _ (List.forall_mem_singleton.mpr holds)
  | .pattern pattern => meets_existence law pattern

theorem compileCount_meets (distinct : Bool) :
    ∀ arguments, Meets R P (compileCount bindings distinct arguments)
  | [argument] =>
    meets_bind law.trans (compile_meets argument) fun _ holds => meets_count law holds distinct
  | [] => meets_refuse law.refl _
  | _ :: _ :: _ => meets_refuse law.refl _

end

end

/-! ## Tests for patterns -/

/-- The states differ in scopes and in the number of the next pattern only. -/
def SameSlots (before after : CompilerState) : Prop :=
  after.graph.unscoped = before.graph.unscoped

theorem SameSlots.refl (state : CompilerState) : SameSlots state state := rfl

theorem SameSlots.trans (first second third : CompilerState) (left : SameSlots first second)
    (right : SameSlots second third) : SameSlots first third :=
  Eq.trans right left

/-- The state is read and written by one step. -/
theorem run_mentionOuter (name : Option String) (kind : SlotKind) (labels : List String)
    (scope : Scope) (state : CompilerState) :
    (mentionOuter name kind labels scope).run.run state =
      match state.graph.mentionAgain? name kind labels scope with
      | .ok (found, graph) => (.ok found, { state with graph })
      | .error error => (.error (.binding error), state) := by
  unfold mentionOuter
  rw [run_bind]
  change StateT.run (ExceptT.run (liftBinding _ >>= _)) state = _
  rw [run_bind]
  cases state.graph.mentionAgain? name kind labels scope <;> rfl

theorem mentionOuter_sameSlots (name : Option String) (kind : SlotKind) (labels : List String)
    (scope : Scope) : Relates SameSlots (mentionOuter name kind labels scope) := by
  intro state
  rw [run_mentionOuter]
  cases mentioned : state.graph.mentionAgain? name kind labels scope with
  | error error => exact ⟨SameSlots.refl state, fun _ _ => trivial⟩
  | ok result => exact ⟨Graph.mentionAgain?_unscoped mentioned, fun _ _ => trivial⟩

section

variable {R : CompilerState → CompilerState → Prop} (refl : ∀ state, R state state)

include refl

theorem relates_liftBinding {α : Type} (result : Except Graph.BindingError α) :
    Relates R (liftBinding result) := by
  cases result with
  | error error => exact meets_throw refl _
  | ok value => exact meets_pure refl trivial

variable (trans : ∀ a b c, R a b → R b c → R a c) {scope : Scope}
  (mention : ∀ name kind labels, Relates R (mentionOuter name kind labels scope))

include trans mention

/-! A pattern changes the state by its mentions of outer variables, and by nothing else. -/

theorem Embedding.relates_tieOuter (embedding : Embedding) (name : Option String)
    (kind : SlotKind) (labels : List String) (index : Nat) :
    Relates R (embedding.tieOuter name kind labels scope index) := by
  apply meets_bind_any trans (mention name kind labels)
  rintro (_ | outer)
  · exact meets_pure refl trivial
  · exact meets_pure refl trivial

theorem Embedding.relates_addNode (embedding : Embedding) (node : NodePattern) :
    Relates R (embedding.addNode scope node) := by
  apply meets_bind_any trans (relates_liftBinding refl _)
  intro mentioned
  apply meets_bind_any trans (Embedding.relates_tieOuter refl trans mention _ _ _ _ _)
  intro tied
  exact meets_pure refl trivial

theorem Embedding.relates_addRelation (embedding : Embedding)
    (relationship : RelationshipPattern) (left right : Nat) :
    Relates R (embedding.addRelation scope relationship left right) := by
  apply meets_bind_any trans (relates_liftBinding refl _)
  intro mentioned
  exact Embedding.relates_tieOuter refl trans mention _ _ _ _ _

theorem Embedding.relates_addHops (embedding : Embedding) (previous : Nat) (hops : List Hop) :
    Relates R (embedding.addHops scope previous hops) := by
  induction hops generalizing embedding previous with
  | nil => exact meets_pure refl trivial
  | cons hop rest ih =>
    apply meets_bind_any trans (Embedding.relates_addNode refl trans mention _ _)
    intro added
    apply meets_bind_any trans (Embedding.relates_addRelation refl trans mention _ _ _ _)
    intro joined
    exact ih joined added.1

end

theorem existence_sameSlots (settings : Settings) (pattern : Pattern) :
    Relates SameSlots (existence settings pattern) := by
  have fresh : Relates SameSlots freshPattern := fun state => ⟨SameSlots.refl state, fun _ _ => trivial⟩
  have mention (number : Nat) (name : Option String) (kind : SlotKind) (labels : List String) :=
    mentionOuter_sameSlots name kind labels (.test number)
  apply meets_bind_any SameSlots.trans fresh
  intro number
  apply meets_bind_any SameSlots.trans
    (Embedding.relates_addNode SameSlots.refl SameSlots.trans (mention number) _ _)
  intro start
  apply meets_bind_any SameSlots.trans
    (Embedding.relates_addHops SameSlots.refl SameSlots.trans (mention number) _ _ _)
  intro embedding
  exact meets_pure SameSlots.refl trivial

/-- Compiling an expression adds no slot to the graph and binds no name in it. -/
theorem compile_sameSlots (bindings : Bindings) (expression : Expression) :
    Relates SameSlots (compile bindings expression) := by
  have anything : Made bindings fun _ => True := by
    constructor <;> intros <;> trivial
  exact compile_meets
    { anything with
      refl := SameSlots.refl
      trans := SameSlots.trans
      test := existence_sameSlots bindings.settings } expression

end CypherSql.Compilation
