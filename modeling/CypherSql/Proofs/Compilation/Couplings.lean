import CypherSql.Proofs.Compilation.Expressions
import CypherSql.Proofs.Compilation.Renamed
import CypherSql.Proofs.Cypher.Renaming
import CypherSql.Proofs.Graph.Unscoped

/-! # One expression under two sets of names

An expression and the same expression under other names are compiled side by side, in graphs whose
slots have these names.  Both succeed, with fragments that differ in the words that nothing binds,
or both fail, with errors that differ in the names and texts they quote.

* `Couples` — two computations go alike from related states.
* `Coupling` — names and mentions go alike, for some relation between states.
* `existence_couples` — a pattern that is tested for, under other names.
* `compile_couples` — an expression under other names.
* `Paired`, `Twins.coupling` — states that differ in the names of their slots.
-/

namespace CypherSql.Compilation

open CypherSql.Cypher
open CypherSql.Graph (BindingError KeepsApart Scope Slot SlotKind)
open CypherSql.Sql (Aggregate Fragment GenerationError Lexeme Malformation)

/-! ## Two runs -/

/-- From related states both computations succeed with related values or fail for the same reason,
and they leave related states behind. -/
def Couples {α β : Type} (S : CompilerState → CompilerState → Prop) (Q : α → β → Prop)
    (first : Compile α) (second : Compile β) : Prop :=
  ∀ state state', S state state' →
    Alike GenerationError.anonymous Q (first.run.run state).1 (second.run.run state').1 ∧
      S (first.run.run state).2 (second.run.run state').2

/-- The one value decides the other. -/
def Into {α β : Type} (f : α → β) (value : α) (other : β) : Prop :=
  other = f value

section

variable {α β γ δ : Type} {S : CompilerState → CompilerState → Prop} {Q : α → β → Prop}
  {P : γ → δ → Prop}

theorem couples_bind {first : Compile α} {second : Compile β} {next : α → Compile γ}
    {next' : β → Compile δ} (couples : Couples S Q first second)
    (couplesNext : ∀ value other, Q value other → Couples S P (next value) (next' other)) :
    Couples S P (first >>= next) (second >>= next') := by
  intro state state' related
  have behind := couples state state' related
  rw [run_bind, run_bind]
  generalize first.run.run state = outcome at behind ⊢
  generalize second.run.run state' = outcome' at behind ⊢
  obtain ⟨value, after⟩ := outcome
  obtain ⟨value', after'⟩ := outcome'
  obtain ⟨alike, relatedAfter⟩ := behind
  cases alike with
  | error same => exact ⟨.error same, relatedAfter⟩
  | ok holds => exact couplesNext _ _ holds after after' relatedAfter

theorem couples_bind_into {f : α → β} {first : Compile α} {second : Compile β}
    {next : α → Compile γ} {next' : β → Compile δ}
    (couples : Couples S (Into f) first second)
    (couplesNext : ∀ value, Couples S P (next value) (next' (f value))) :
    Couples S P (first >>= next) (second >>= next') := by
  apply couples_bind couples
  rintro value _ rfl
  exact couplesNext value

theorem couples_pure {value : α} {other : β} (related : Q value other) :
    Couples S Q (pure value) (pure other) :=
  fun _ _ same => ⟨.ok related, same⟩

theorem couples_throw {error other : GenerationError} (same : other.anonymous = error.anonymous) :
    Couples S Q (throw error) (throw other) :=
  fun _ _ related => ⟨.error same, related⟩

theorem couples_refuse {shape other : Malformation} (same : other.anonymous = shape.anonymous) :
    Couples S Q (refuse shape) (refuse other) :=
  couples_throw (congrArg GenerationError.malformed same)

theorem couples_get : Couples S S get get :=
  fun _ _ related => ⟨.ok related, related⟩

theorem couples_liftBinding {result : Except BindingError α} {other : Except BindingError β}
    (alike : Alike BindingError.anonymous Q result other) :
    Couples S Q (liftBinding result) (liftBinding other) := by
  cases alike with
  | error same => exact couples_throw (congrArg GenerationError.binding same)
  | ok related => exact couples_pure related

end

/-- Names for the second run, which looks for patterns in the same tables. -/
structure Twins (σ : String → String) (names : List String) (bindings bindings' : Bindings) :
    Prop where
  apart : KeepsApart σ names
  assets : bindings'.settings.assetsTable = bindings.settings.assetsTable
  relations : bindings'.settings.relationsTable = bindings.settings.relationsTable

/-- In related states names stand for the same, up to the names for the second run, and mentions in
tests for patterns go alike.  Nothing else in an expression looks at the state. -/
structure Coupling (σ : String → String) (names : List String)
    (S : CompilerState → CompilerState → Prop) (bindings bindings' : Bindings) : Prop
    extends Twins σ names bindings bindings' where
  slot : ∀ state state', S state state' → ∀ name ∈ names,
    state'.graph.slot? (σ name) = state.graph.slot? name
  given : ∀ state state', S state state' → ∀ name ∈ names, state.graph.slot? name = none →
    bindings'.find? (σ name) = (bindings.find? name).map (Compiled.rename σ)
  mention : ∀ (name : Option String) (kind : SlotKind) (labels : List String) (scope : Scope),
    (∀ given ∈ name, given ∈ names) → Couples S (Into id) (mentionOuter name kind labels scope)
      (mentionOuter (name.map σ) kind labels scope)
  fresh : Couples S (Into id) freshPattern freshPattern

section

variable {σ : String → String} {names : List String} {bindings bindings' : Bindings}
  {S : CompilerState → CompilerState → Prop}

/-! ## Tests for patterns -/

namespace Embedding

def rename (σ : String → String) (embedding : Embedding) : Embedding :=
  { embedding with graph := embedding.graph.rename σ }

/-- The second pattern is the first one under other names. -/
def Renamed (σ : String → String) (names : List String) (embedding embedding' : Embedding) : Prop :=
  embedding' = embedding.rename σ ∧ embedding.graph.NamedBy names

theorem tie_rename (embedding : Embedding) (inner outer : Slot) :
    (embedding.rename σ).tie inner outer = (embedding.tie inner outer).rename σ := by
  unfold tie
  rw [rename]
  split <;> rfl

theorem graph_tie (embedding : Embedding) (inner outer : Slot) :
    (embedding.tie inner outer).graph = embedding.graph := by
  unfold tie
  dsimp only
  split <;> rfl

theorem tieOuter_couples (coupling : Coupling σ names S bindings bindings') (embedding : Embedding)
    (named : embedding.graph.NamedBy names) {name : Option String}
    (isName : ∀ given ∈ name, given ∈ names) (kind : SlotKind) (labels : List String)
    (scope : Scope) (index : Nat) :
    Couples S (Renamed σ names) (embedding.tieOuter name kind labels scope index)
      ((embedding.rename σ).tieOuter (name.map σ) kind labels scope index) := by
  apply couples_bind_into (coupling.mention name kind labels scope isName)
  rintro (_ | outer)
  · exact couples_pure ⟨rfl, named⟩
  · exact couples_pure ⟨tie_rename embedding _ _, by rwa [graph_tie]⟩

theorem addNode_couples (coupling : Coupling σ names S bindings bindings') {embedding : Embedding}
    (named : embedding.graph.NamedBy names) {node : NodePattern}
    (isName : ∀ given ∈ node.name, given ∈ names) (scope : Scope) :
    Couples S
      (fun result result' => result' = (result.1, result.2.rename σ) ∧
        result.2.graph.NamedBy names)
      (embedding.addNode scope node) ((embedding.rename σ).addNode scope (node.rename σ)) := by
  apply couples_bind (couples_liftBinding
    (Graph.mentionNode_rename coupling.apart named isName node.labels .clause))
  rintro ⟨index, graph⟩ _ ⟨rfl, named⟩
  apply couples_bind (tieOuter_couples coupling { embedding with graph } named isName .node
    node.labels scope index)
  rintro tied _ ⟨rfl, named⟩
  exact couples_pure ⟨rfl, named⟩

theorem addRelation_couples (coupling : Coupling σ names S bindings bindings')
    {embedding : Embedding} (named : embedding.graph.NamedBy names)
    {relationship : RelationshipPattern} (isName : ∀ given ∈ relationship.name, given ∈ names)
    (scope : Scope) (left right : Nat) :
    Couples S (Renamed σ names)
      (embedding.addRelation scope relationship left right)
      ((embedding.rename σ).addRelation scope (relationship.rename σ) left right) := by
  apply couples_bind (couples_liftBinding (Graph.mentionRelation_rename coupling.apart named isName
    relationship.labels left right _ .clause))
  rintro ⟨index, graph⟩ _ ⟨rfl, named⟩
  exact tieOuter_couples coupling { embedding with graph } named isName .relation
    relationship.labels scope index

theorem addHops_couples (coupling : Coupling σ names S bindings bindings') {embedding : Embedding}
    (named : embedding.graph.NamedBy names) {hops : List Hop}
    (areNames : ∀ hop ∈ hops, (∀ given ∈ hop.node.name, given ∈ names) ∧
      ∀ given ∈ hop.relationship.name, given ∈ names) (scope : Scope) (previous : Nat) :
    Couples S (Renamed σ names)
      (embedding.addHops scope previous hops)
      ((embedding.rename σ).addHops scope previous (hops.map (Hop.rename σ))) := by
  induction hops generalizing embedding previous with
  | nil => exact couples_pure ⟨rfl, named⟩
  | cons hop rest ih =>
    obtain ⟨⟨ofNode, ofRelationship⟩, ofRest⟩ := List.forall_mem_cons.mp areNames
    apply couples_bind (addNode_couples coupling named ofNode scope)
    rintro ⟨next, embedding⟩ _ ⟨rfl, named⟩
    apply couples_bind (addRelation_couples coupling named ofRelationship scope previous next)
    rintro embedding _ ⟨rfl, named⟩
    exact ih named ofRest next

/-- What a pattern looks for does not depend on its names. -/
theorem subselect_rename (twins : Twins σ names bindings bindings') (embedding : Embedding) :
    (embedding.rename σ).subselect bindings'.settings = embedding.subselect bindings.settings := by
  unfold subselect
  rw [twins.assets, twins.relations]
  rfl

end Embedding

theorem existence_couples (coupling : Coupling σ names S bindings bindings') {pattern : Pattern}
    (areNames : ∀ name ∈ pattern.mentions, name ∈ names) :
    Couples S (Into (Compiled.rename σ))
      (existence bindings.settings pattern)
      (existence bindings'.settings (pattern.rename σ)) := by
  obtain ⟨ofNode, ofHops⟩ := Pattern.forall_mem_mentions.mp areNames
  apply couples_bind_into coupling.fresh
  intro number
  have empty : Embedding.empty.graph.NamedBy names := List.forall_mem_nil _
  apply couples_bind (Embedding.addNode_couples coupling empty ofNode (.test number))
  rintro ⟨start, embedding⟩ _ ⟨rfl, named⟩
  apply couples_bind (Embedding.addHops_couples coupling named ofHops (.test number) start)
  rintro embedding _ ⟨rfl, named⟩
  refine couples_pure ?_
  rw [Embedding.subselect_rename coupling.toTwins]
  rfl

/-! ## Names and terms -/

/-- What is made of ingredients that mention these names only. -/
def Within (names : List String) (parts : List Ingredient) : Prop :=
  ∀ part ∈ parts, ∀ name ∈ part.mentions, name ∈ names

theorem Within.append {first others : List Ingredient} (within : Within names (first ++ others)) :
    Within names first ∧ Within names others :=
  List.forall_mem_append.mp within

theorem Within.name {name : String} {path : List String}
    (within : Within names [.name name path]) : name ∈ names :=
  within _ List.mem_cons_self _ List.mem_cons_self

theorem compileName_couples (coupling : Coupling σ names S bindings bindings') {name : String}
    (isName : name ∈ names) (path : List String) :
    Couples S (Into (Compiled.rename σ)) (compileName bindings name path)
      (compileName bindings' (σ name) path) := by
  apply couples_bind couples_get
  intro state state' related
  rw [coupling.slot state state' related name isName]
  -- Variables come before names that were given.  Only what is neither is written as a word.
  cases bound : state.graph.slot? name with
  | some slot => exact couples_pure (compileSlot_rename σ slot path)
  | none =>
    rw [coupling.given state state' related name isName bound]
    cases bindings.find? name with
    | some compiled =>
      dsimp only [Option.map_some]
      split
      · exact couples_pure rfl
      · have same : (compiled.rename σ).slot = compiled.slot := rfl
        rw [same]
        cases compiled.slot with
        | some slot => exact couples_pure (compileSlot_rename σ slot path)
        | none => exact couples_throw rfl
    | none =>
      dsimp only [Option.map_none]
      split
      · exact couples_pure rfl
      · exact couples_throw rfl

theorem stringOf?_rename (term : Term) : stringOf? (term.rename σ) = stringOf? term := by
  obtain ⟨atom, path⟩ := term
  cases atom <;> rfl

theorem applyTests_couples (subject : Compiled) : ∀ tests,
    Couples S (Into (Compiled.rename σ))
      (applyTests subject tests) (applyTests (subject.rename σ) (testedRename σ tests))
  | [] => couples_pure rfl
  | [(operator, term)] => by
    rw [testedRename, testedRename, applyTests, applyTests, stringOf?_rename]
    cases stringOf? term with
    | none => exact couples_throw rfl
    | some text =>
      refine couples_pure ?_
      rw [Into, Compiled.rename_ofParts, Compiled.operand_rename, Compiled.rename_append]
      rfl
  | _ :: _ :: _ => couples_refuse rfl

theorem count_couples (argument : Compiled) (distinct : Bool) :
    Couples S (Into (Compiled.rename σ)) (count argument distinct)
      (count (argument.rename σ) distinct) := by
  have same : (argument.rename σ).aggregates = argument.aggregates := rfl
  unfold count
  rw [same, counted_rename]
  split
  · exact couples_refuse rfl
  · exact couples_pure (Compiled.rename_ofAggregate σ _ _ [argument]).symm

theorem requireNoPath_couples (atom atom' : Atom) (path : List String) :
    Couples S (fun _ _ => True) (requireNoPath atom path) (requireNoPath atom' path) := by
  unfold requireNoPath
  split
  · exact couples_pure trivial
  · exact couples_refuse rfl

/-! ## Whole expressions -/

mutual

/-- An expression and the same expression under other names go alike. -/
theorem compile_couples (coupling : Coupling σ names S bindings bindings') :
    ∀ expression : Expression, Within names expression.ingredients →
      Couples S (Into (Compiled.rename σ))
        (compile bindings expression) (compile bindings' (expression.rename σ))
  | ⟨[]⟩, _ => couples_refuse rfl
  | ⟨[only]⟩, within => compileExclusion_couples coupling true only within.append.1
  | ⟨first :: second :: rest⟩, within =>
    couples_bind_into (compileExclusions_couples coupling (first :: second :: rest) within)
      fun parts => couples_pure (Compiled.rename_disjunction σ parts).symm

theorem compileExclusions_couples (coupling : Coupling σ names S bindings bindings') :
    ∀ operands, Within names (exclusionsIngredients operands) →
      Couples S (Into (List.map (Compiled.rename σ)))
        (compileExclusions bindings operands)
        (compileExclusions bindings' (exclusionsRename σ operands))
  | [], _ => couples_pure rfl
  | operand :: rest, within =>
    couples_bind_into (compileExclusion_couples coupling false operand within.append.1) fun _ =>
      couples_bind_into (compileExclusions_couples coupling rest within.append.2) fun _ =>
        couples_pure rfl

theorem compileExclusion_couples (coupling : Coupling σ names S bindings bindings') (whole : Bool) :
    ∀ operand : Exclusion, Within names operand.ingredients →
      Couples S (Into (Compiled.rename σ))
        (compileExclusion bindings whole operand)
        (compileExclusion bindings' whole (operand.rename σ))
  | ⟨[]⟩, _ => couples_refuse rfl
  | ⟨[only]⟩, within => compileConjunction_couples coupling whole only within.append.1
  | ⟨_ :: _ :: _⟩, _ => couples_refuse rfl

theorem compileConjunction_couples (coupling : Coupling σ names S bindings bindings')
    (whole : Bool) :
    ∀ operand : Conjunction, Within names operand.ingredients →
      Couples S (Into (Compiled.rename σ))
        (compileConjunction bindings whole operand)
        (compileConjunction bindings' whole (operand.rename σ))
  | ⟨[]⟩, _ => couples_refuse rfl
  | ⟨[only]⟩, within => compileComparison_couples coupling whole only within.append.1
  | ⟨first :: second :: rest⟩, within =>
    couples_bind_into (compileComparisons_couples coupling (first :: second :: rest) within)
      fun parts => couples_pure (Compiled.rename_chain σ .and parts).symm

theorem compileComparisons_couples (coupling : Coupling σ names S bindings bindings') :
    ∀ operands, Within names (comparisonsIngredients operands) →
      Couples S (Into (List.map (Compiled.rename σ)))
        (compileComparisons bindings operands)
        (compileComparisons bindings' (comparisonsRename σ operands))
  | [], _ => couples_pure rfl
  | operand :: rest, within =>
    couples_bind_into (compileComparison_couples coupling false operand within.append.1) fun _ =>
      couples_bind_into (compileComparisons_couples coupling rest within.append.2) fun _ =>
        couples_pure rfl

theorem compileComparison_couples (coupling : Coupling σ names S bindings bindings')
    (whole : Bool) :
    ∀ operand : Comparison, Within names operand.ingredients →
      Couples S (Into (Compiled.rename σ))
        (compileComparison bindings whole operand)
        (compileComparison bindings' whole (operand.rename σ))
  | ⟨negated, left, rest⟩, within => by
    rw [Comparison.rename, compileComparison, compileComparison, isEmpty_comparedRename]
    exact couples_bind_into (compileAddition_couples coupling _ left within.append.1) fun first =>
      couples_bind_into (compileCompared_couples coupling first rest within.append.2)
        fun compared => couples_pure (behindIf_rename σ negated .not compared)

theorem compileCompared_couples (coupling : Coupling σ names S bindings bindings')
    (first : Compiled) :
    ∀ rest, Within names (comparedIngredients rest) →
      Couples S (Into (Compiled.rename σ))
        (compileCompared bindings first rest)
        (compileCompared bindings' (first.rename σ) (comparedRename σ rest))
  | [], _ => couples_pure rfl
  | [(operator, right)], within =>
    couples_bind_into (compileAddition_couples coupling false right within.append.1) fun second =>
      couples_pure (Compiled.rename_steps σ first [(.compare operator, second)]).symm
  | _ :: _ :: _, _ => couples_refuse rfl

theorem compileAddition_couples (coupling : Coupling σ names S bindings bindings') (whole : Bool) :
    ∀ operand : Addition, Within names operand.ingredients →
      Couples S (Into (Compiled.rename σ))
        (compileAddition bindings whole operand)
        (compileAddition bindings' whole (operand.rename σ))
  | ⟨first, rest⟩, within => by
    rw [Addition.rename, compileAddition, compileAddition, isEmpty_addedRename]
    exact couples_bind_into (compileMultiplication_couples coupling _ first within.append.1)
      fun left => couples_bind_into (compileAdded_couples coupling rest within.append.2)
        fun right => couples_pure (stepsIfAny_rename σ left right)

theorem compileAdded_couples (coupling : Coupling σ names S bindings bindings') :
    ∀ rest, Within names (addedIngredients rest) →
      Couples S
        (Into (List.map (Prod.map (Lexeme.rename σ) (Compiled.rename σ))))
        (compileAdded bindings rest) (compileAdded bindings' (addedRename σ rest))
  | [], _ => couples_pure rfl
  | (_, operand) :: rest, within =>
    couples_bind_into (compileMultiplication_couples coupling false operand within.append.1)
      fun _ => couples_bind_into (compileAdded_couples coupling rest within.append.2) fun _ =>
        couples_pure rfl

theorem compileMultiplication_couples (coupling : Coupling σ names S bindings bindings')
    (whole : Bool) :
    ∀ operand : Multiplication, Within names operand.ingredients →
      Couples S (Into (Compiled.rename σ))
        (compileMultiplication bindings whole operand)
        (compileMultiplication bindings' whole (operand.rename σ))
  | ⟨first, rest⟩, within => by
    rw [Multiplication.rename, compileMultiplication, compileMultiplication,
      isEmpty_multipliedRename]
    exact couples_bind_into (compilePower_couples coupling _ first within.append.1) fun left =>
      couples_bind_into (compileMultiplied_couples coupling rest within.append.2) fun right =>
        couples_pure (stepsIfAny_rename σ left right)

theorem compileMultiplied_couples (coupling : Coupling σ names S bindings bindings') :
    ∀ rest, Within names (multipliedIngredients rest) →
      Couples S
        (Into (List.map (Prod.map (Lexeme.rename σ) (Compiled.rename σ))))
        (compileMultiplied bindings rest) (compileMultiplied bindings' (multipliedRename σ rest))
  | [], _ => couples_pure rfl
  | (_, operand) :: rest, within =>
    couples_bind_into (compilePower_couples coupling false operand within.append.1) fun _ =>
      couples_bind_into (compileMultiplied_couples coupling rest within.append.2) fun _ =>
        couples_pure rfl

theorem compilePower_couples (coupling : Coupling σ names S bindings bindings') (whole : Bool) :
    ∀ operand : Power, Within names operand.ingredients →
      Couples S (Into (Compiled.rename σ))
        (compilePower bindings whole operand) (compilePower bindings' whole (operand.rename σ))
  | ⟨[]⟩, _ => couples_refuse rfl
  | ⟨[only]⟩, within => compileSigned_couples coupling whole only within.append.1
  | ⟨first :: second :: rest⟩, within =>
    couples_bind_into (compileSigned_couples coupling false first within.append.1) fun base =>
      couples_bind_into (compileSigneds_couples coupling (second :: rest) within.append.2)
        fun exponents => couples_pure (powers_rename σ base exponents)

theorem compileSigneds_couples (coupling : Coupling σ names S bindings bindings') :
    ∀ operands, Within names (signedsIngredients operands) →
      Couples S (Into (List.map (Compiled.rename σ)))
        (compileSigneds bindings operands) (compileSigneds bindings' (signedsRename σ operands))
  | [], _ => couples_pure rfl
  | operand :: rest, within =>
    couples_bind_into (compileSigned_couples coupling false operand within.append.1) fun _ =>
      couples_bind_into (compileSigneds_couples coupling rest within.append.2) fun _ =>
        couples_pure rfl

theorem compileSigned_couples (coupling : Coupling σ names S bindings bindings') (whole : Bool) :
    ∀ operand : Signed, Within names operand.ingredients →
      Couples S (Into (Compiled.rename σ))
        (compileSigned bindings whole operand) (compileSigned bindings' whole (operand.rename σ))
  | ⟨negative, term, tests⟩, within => by
    rw [Signed.rename, compileSigned, compileSigned, isEmpty_testedRename]
    exact couples_bind_into (compileTerm_couples coupling _ term within.append.1) fun subject =>
      couples_bind_into (applyTests_couples subject tests) fun tested =>
        couples_pure (behindIf_rename σ negative .negate tested)

theorem compileTerm_couples (coupling : Coupling σ names S bindings bindings') (whole : Bool) :
    ∀ term : Term, Within names term.ingredients →
      Couples S (Into (Compiled.rename σ))
        (compileTerm bindings whole term) (compileTerm bindings' whole (term.rename σ))
  | ⟨.name _, path⟩, within => compileName_couples coupling within.name path
  | ⟨.literal value, path⟩, within =>
    couples_bind (requireNoPath_couples _ _ path) fun _ _ _ =>
      compileAtom_couples coupling whole (.literal value) within
  | ⟨.call name distinct arguments, path⟩, within =>
    couples_bind (requireNoPath_couples _ _ path) fun _ _ _ =>
      compileAtom_couples coupling whole (.call name distinct arguments) within
  | ⟨.countAll, path⟩, within =>
    couples_bind (requireNoPath_couples _ _ path) fun _ _ _ =>
      compileAtom_couples coupling whole .countAll within
  | ⟨.parenthesized inner, path⟩, within =>
    couples_bind (requireNoPath_couples _ _ path) fun _ _ _ =>
      compileAtom_couples coupling whole (.parenthesized inner) within
  | ⟨.pattern pattern, path⟩, within =>
    couples_bind (requireNoPath_couples _ _ path) fun _ _ _ =>
      compileAtom_couples coupling whole (.pattern pattern) within

theorem compileAtom_couples (coupling : Coupling σ names S bindings bindings') (whole : Bool) :
    ∀ atom : Atom, Within names atom.ingredients →
      Couples S (Into (Compiled.rename σ))
        (compileAtom bindings whole atom) (compileAtom bindings' whole (atom.rename σ))
  | .name _, within => compileName_couples coupling within.name []
  | .literal _, _ => couples_pure rfl
  | .call name distinct arguments, within => by
    rw [Atom.rename, compileAtom, compileAtom]
    split
    · exact compileCount_couples coupling distinct arguments (List.forall_mem_cons.mp within).2
    · exact couples_throw rfl
  | .countAll, _ => couples_pure (Compiled.rename_ofAggregate σ _ [.star] []).symm
  | .parenthesized inner, within =>
    couples_bind_into (compile_couples coupling inner within) fun value =>
      couples_pure (parenthesizedIf_rename σ whole value)
  | .pattern pattern, within =>
    existence_couples coupling (List.forall_mem_singleton.mp within)

theorem compileCount_couples (coupling : Coupling σ names S bindings bindings') (distinct : Bool) :
    ∀ arguments, Within names (argumentsIngredients arguments) →
      Couples S (Into (Compiled.rename σ))
        (compileCount bindings distinct arguments)
        (compileCount bindings' distinct (argumentsRename σ arguments))
  | [argument], within =>
    couples_bind_into (compile_couples coupling argument within.append.1) fun _ =>
      count_couples _ distinct
  | [], _ => couples_refuse rfl
  | _ :: _ :: _, _ => couples_refuse rfl

end

end

/-! ## States under other names -/

/-- The graph of the second state is that of the first one under other names, and names that are no
slots stand for the same, up to these names. -/
structure Paired (σ : String → String) (names : List String) (bindings bindings' : Bindings)
    (state state' : CompilerState) : Prop where
  graph : Graph.RenamedTo σ names state.graph state'.graph
  nextPattern : state'.nextPattern = state.nextPattern
  given : ∀ name ∈ names, state.graph.slot? name = none →
    bindings'.find? (σ name) = (bindings.find? name).map (Compiled.rename σ)

section

variable {σ : String → String} {names : List String} {bindings bindings' : Bindings}

theorem mentionOuter_couples (apart : KeepsApart σ names) {name : Option String}
    (isName : ∀ given ∈ name, given ∈ names) (kind : SlotKind) (labels : List String)
    (scope : Scope) :
    Couples (Paired σ names bindings bindings') (Into id) (mentionOuter name kind labels scope)
      (mentionOuter (name.map σ) kind labels scope) := by
  intro state state' paired
  obtain ⟨renamed, sameNumber, given⟩ := paired
  have alike := renamed.mentionAgain? apart isName kind labels scope
  rw [run_mentionOuter, run_mentionOuter]
  generalize mentioned : state.graph.mentionAgain? name kind labels scope = result,
    state'.graph.mentionAgain? (name.map σ) kind labels scope = result' at alike ⊢
  cases alike with
  | error same =>
    exact ⟨.error (congrArg GenerationError.binding same), ⟨renamed, sameNumber, given⟩⟩
  | ok result =>
    obtain ⟨sameAnswer, renamed⟩ := result
    -- A mention records who made it, so names that meant no slot still mean none.
    refine ⟨.ok sameAnswer, ⟨renamed, sameNumber, fun name isName unbound => given name isName ?_⟩⟩
    rwa [Graph.slot?_eq_of_unscoped (Graph.mentionAgain?_unscoped mentioned)] at unbound

theorem freshPattern_couples :
    Couples (Paired σ names bindings bindings') (Into id) freshPattern freshPattern := by
  rintro state state' ⟨renamed, sameNumber, given⟩
  exact ⟨.ok sameNumber, ⟨renamed, congrArg (· + 1) sameNumber, given⟩⟩

theorem Twins.coupling (twins : Twins σ names bindings bindings') :
    Coupling σ names (Paired σ names bindings bindings') bindings bindings' :=
  { twins with
    slot := fun _ _ paired _ isName => paired.graph.slot? twins.apart isName
    given := fun _ _ paired => paired.given
    mention := fun _ kind labels scope isName =>
      mentionOuter_couples twins.apart isName kind labels scope
    fresh := freshPattern_couples }

end

/-! ## The same names -/

theorem fragment_rename_id (fragment : Fragment) : fragment.rename id = fragment :=
  map_rename_id (fun lexeme => by cases lexeme <;> rfl) fragment

theorem Compiled.rename_id (compiled : Compiled) : compiled.rename id = compiled := by
  obtain ⟨sql, kind, columns, slot, aggregate, aggregates, reads, disjunctive⟩ := compiled
  rw [rename, fragment_rename_id, map_rename_id fragment_rename_id]
  cases aggregate with
  | none => rfl
  | some entry => simp only [Option.map_some, fragment_rename_id]

end CypherSql.Compilation
