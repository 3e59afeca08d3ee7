import CypherSql.Proofs.Compilation.Reports

/-! # Which expressions compile

Whether an expression compiles is decided by its constructs, each of them on its own: a level with
its operands, a call with its arguments, a term with the properties that are taken from it.  The
names of a query matter where a property is taken and where an argument is counted, and nowhere
else.

* `Construct` — a place of an expression where compilation may be refused.
* `Expression.constructs` — all of them, those in arguments and parentheses included.
* `Bindings.Allows` — when a construct is not refused.
* `Succeeds` — a computation succeeds exactly where some constructs are allowed.
* `compile_succeeds_iff` — an expression compiles exactly where all its constructs are allowed.
-/

namespace CypherSql

open CypherSql.Graph (Slot)
open CypherSql.Sql (GenerationError Malformation)

/-! ## Constructs -/

namespace Cypher

/-- What compilation looks at before it goes on to the operands. -/
inductive Construct where
  | disjunction (operands : List Exclusion)
  | exclusion (operands : List Conjunction)
  | conjunction (operands : List Comparison)
  | comparisons (rest : List (ComparisonOperator × Addition))
  | power (operands : List Signed)
  | tests (tests : List (StringOperator × Term))
  | call (function : String) (arguments : List Expression)
  | properties (atom : Atom) (path : List String)
  | pattern (pattern : Pattern)

mutual

def Expression.constructs : Expression → List Construct
  | ⟨operands⟩ => .disjunction operands :: exclusionsConstructs operands

def exclusionsConstructs : List Exclusion → List Construct
  | [] => []
  | operand :: rest => operand.constructs ++ exclusionsConstructs rest

def Exclusion.constructs : Exclusion → List Construct
  | ⟨operands⟩ => .exclusion operands :: conjunctionsConstructs operands

def conjunctionsConstructs : List Conjunction → List Construct
  | [] => []
  | operand :: rest => operand.constructs ++ conjunctionsConstructs rest

def Conjunction.constructs : Conjunction → List Construct
  | ⟨operands⟩ => .conjunction operands :: comparisonsConstructs operands

def comparisonsConstructs : List Comparison → List Construct
  | [] => []
  | operand :: rest => operand.constructs ++ comparisonsConstructs rest

def Comparison.constructs : Comparison → List Construct
  | ⟨_, left, rest⟩ => left.constructs ++ .comparisons rest :: comparedConstructs rest

def comparedConstructs : List (ComparisonOperator × Addition) → List Construct
  | [] => []
  | (_, operand) :: rest => operand.constructs ++ comparedConstructs rest

def Addition.constructs : Addition → List Construct
  | ⟨first, rest⟩ => first.constructs ++ addedConstructs rest

def addedConstructs : List (AdditiveOperator × Multiplication) → List Construct
  | [] => []
  | (_, operand) :: rest => operand.constructs ++ addedConstructs rest

def Multiplication.constructs : Multiplication → List Construct
  | ⟨first, rest⟩ => first.constructs ++ multipliedConstructs rest

def multipliedConstructs : List (MultiplicativeOperator × Power) → List Construct
  | [] => []
  | (_, operand) :: rest => operand.constructs ++ multipliedConstructs rest

def Power.constructs : Power → List Construct
  | ⟨operands⟩ => .power operands :: signedsConstructs operands

def signedsConstructs : List Signed → List Construct
  | [] => []
  | operand :: rest => operand.constructs ++ signedsConstructs rest

/-- What stands behind a string test is not compiled, so it has no constructs. -/
def Signed.constructs : Signed → List Construct
  | ⟨_, term, tests⟩ => term.constructs ++ [.tests tests]

def Term.constructs : Term → List Construct
  | ⟨atom, path⟩ => .properties atom path :: atom.constructs

def Atom.constructs : Atom → List Construct
  | .call function _ arguments => .call function arguments :: argumentsConstructs arguments
  | .parenthesized inner => inner.constructs
  | .pattern pattern => [.pattern pattern]
  | .name _ | .literal _ | .countAll => []

def argumentsConstructs : List Expression → List Construct
  | [] => []
  | argument :: rest => argument.constructs ++ argumentsConstructs rest

end

end Cypher

namespace Compilation

open Cypher

/-! ## What is allowed -/

/-- A name stands for a slot: as a variable of the graph, or else because it was given to one. -/
def Bindings.NamesSlot (bindings : Bindings) (graph : Graph) (name : String) : Prop :=
  ∃ slot, graph.slot? name = some slot ∨
    graph.slot? name = none ∧ ∃ given, bindings.find? name = some given ∧ given.slot = some slot

/-- When a construct is not refused.  What is counted must not aggregate, neither itself nor through
a name. -/
def Bindings.Allows (bindings : Bindings) (graph : Graph) : Construct → Prop
  | .disjunction operands => operands ≠ []
  | .exclusion operands => operands.length = 1
  | .conjunction operands => operands ≠ []
  | .comparisons rest => rest.length ≤ 1
  | .power operands => operands ≠ []
  | .tests tests =>
    tests.length ≤ 1 ∧ ∀ test ∈ tests, ∃ text, test.2 = ⟨.literal (.string text), []⟩
  | .call function arguments =>
    Text.sameIgnoringCase function "COUNT" = true ∧ ∃ argument, arguments = [argument] ∧
      ∀ ingredient ∈ argument.ingredients, bindings.aggregates graph ingredient = false
  | .properties atom path => path = [] ∨ ∃ name, atom = .name name ∧ bindings.NamesSlot graph name
  | .pattern pattern => (embeds graph pattern).isSome = true

/-- In every state with the slots of a graph, a computation succeeds exactly where the constructs
are allowed.  It keeps the slots then, and its value has a property. -/
def SucceedsWith {α : Type} (bindings : Bindings) (outer : Graph) (constructs : List Construct)
    (P : α → Prop) (computation : Compile α) : Prop :=
  ∀ state, state.graph.unscoped = outer.unscoped →
    match computation.run.run state with
    | (.ok value, after) => (∀ construct ∈ constructs, bindings.Allows outer construct) ∧
        after.graph.unscoped = outer.unscoped ∧ P value
    | (.error _, _) => ¬∀ construct ∈ constructs, bindings.Allows outer construct

abbrev Succeeds {α : Type} (bindings : Bindings) (outer : Graph) (constructs : List Construct)
    (computation : Compile α) : Prop :=
  SucceedsWith bindings outer constructs (fun _ => True) computation

section

variable {α β : Type} {bindings : Bindings} {outer : Graph} {constructs more : List Construct}
  {construct : Construct} {P : α → Prop} {Q : β → Prop}

/-! ## Steps of a computation -/

theorem succeeds_pure (value : α) : Succeeds bindings outer [] (pure value : Compile α) :=
  fun _ same => ⟨List.forall_mem_nil _, same, trivial⟩

theorem succeeds_get {next : CompilerState → Compile α}
    (succeeds : ∀ state, state.graph.unscoped = outer.unscoped →
      SucceedsWith bindings outer constructs P (next state)) :
    SucceedsWith bindings outer constructs P (get >>= next) :=
  fun state same => succeeds state same state same

theorem succeeds_bind {first : Compile α} {next : α → Compile β}
    (succeeds : SucceedsWith bindings outer constructs P first)
    (succeedsNext : ∀ value, P value → SucceedsWith bindings outer more Q (next value)) :
    SucceedsWith bindings outer (constructs ++ more) Q (first >>= next) := by
  intro state same
  have outcome := succeeds state same
  rw [run_bind]
  simp only [List.forall_mem_append]
  generalize first.run.run state = result at outcome
  obtain ⟨_ | value, after⟩ := result
  · exact fun allowed => outcome allowed.1
  · obtain ⟨allowed, sameAfter, holds⟩ := outcome
    have outcomeNext := succeedsNext value holds after sameAfter
    dsimp only
    generalize (next value).run.run after = last at outcomeNext
    obtain ⟨_ | result, final⟩ := last
    · exact fun allowedBoth => outcomeNext allowedBoth.2
    · exact ⟨⟨allowed, outcomeNext.1⟩, outcomeNext.2⟩

/-- What is done with a value at the end is never refused. -/
theorem succeeds_map {first : Compile α} {change : α → β}
    (succeeds : Succeeds bindings outer constructs first) :
    Succeeds bindings outer constructs (first >>= fun value => pure (change value)) := by
  rw [← List.append_nil constructs]
  exact succeeds_bind succeeds fun value _ => succeeds_pure (change value)

theorem succeeds_congr {computation : Compile α}
    (same : (∀ construct ∈ constructs, bindings.Allows outer construct) ↔
      ∀ construct ∈ more, bindings.Allows outer construct)
    (succeeds : SucceedsWith bindings outer constructs P computation) :
    SucceedsWith bindings outer more P computation := by
  unfold SucceedsWith at succeeds ⊢
  simpa only [same] using succeeds

theorem succeeds_cons {computation : Compile α} (allowed : bindings.Allows outer construct)
    (succeeds : SucceedsWith bindings outer constructs P computation) :
    SucceedsWith bindings outer (construct :: constructs) P computation :=
  succeeds_congr (by rw [List.forall_mem_cons, and_iff_right allowed]) succeeds

/-- One operand is a level of its own only by name. -/
theorem succeeds_only {computation : Compile α} (allowed : bindings.Allows outer construct)
    (succeeds : SucceedsWith bindings outer constructs P computation) :
    SucceedsWith bindings outer (construct :: (constructs ++ [])) P computation :=
  succeeds_cons allowed ((List.append_nil constructs).symm ▸ succeeds)

theorem succeeds_throw (refused : ¬bindings.Allows outer construct) (error : GenerationError) :
    SucceedsWith bindings outer (construct :: constructs) P (throw error : Compile α) :=
  fun _ _ allowed => refused (allowed construct List.mem_cons_self)

theorem succeeds_refuse (refused : ¬bindings.Allows outer construct) (shape : Malformation) :
    SucceedsWith bindings outer (construct :: constructs) P (refuse shape : Compile α) :=
  succeeds_throw refused _

/-- What is known of the value otherwise. -/
theorem SucceedsWith.performs {computation : Compile α} {parts : List Ingredient}
    (succeeds : Succeeds bindings outer constructs computation)
    (performs : Performs bindings.settings outer parts P computation) :
    SucceedsWith bindings outer constructs P computation := by
  intro state same
  have outcome := succeeds state same
  obtain ⟨_, _, _, whole⟩ := performs state same
  generalize computation.run.run state = result at outcome whole ⊢
  obtain ⟨_ | value, after⟩ := result
  · exact outcome
  · exact ⟨outcome.1, outcome.2.1, (whole value rfl).2⟩

/-! ## Single constructs -/

theorem requireNoPath_succeeds {atom : Atom} (noName : ∀ name, atom ≠ .name name)
    (path : List String) :
    Succeeds bindings outer [.properties atom path] (requireNoPath atom path) := by
  unfold requireNoPath
  split
  · next bare => exact succeeds_cons (.inl (List.isEmpty_iff.mp bare)) (succeeds_pure ())
  · next taken =>
    refine succeeds_refuse ?_ _
    rintro (bare | ⟨name, isName, _⟩)
    · exact taken (List.isEmpty_iff.mpr bare)
    · exact noName name isName

/-- A graph variable comes before a name that was given, and a property is taken from a slot. -/
theorem compileName_succeeds (name : String) (path : List String) :
    Succeeds bindings outer [.properties (.name name) path] (compileName bindings name path) := by
  apply succeeds_get
  intro state same
  rw [Graph.slot?_eq_of_unscoped same]
  have refused (taken : ¬path.isEmpty = true) (slotless : ¬bindings.NamesSlot outer name) :
      ¬bindings.Allows outer (.properties (.name name) path) := by
    rintro (bare | ⟨_, ⟨⟩, names⟩)
    · exact taken (List.isEmpty_iff.mpr bare)
    · exact slotless names
  cases bound : outer.slot? name with
  | some slot => exact succeeds_cons (.inr ⟨name, rfl, slot, .inl bound⟩) (succeeds_pure _)
  | none =>
    cases isGiven : bindings.find? name with
    | some given =>
      dsimp only
      split
      · next bare => exact succeeds_cons (.inl (List.isEmpty_iff.mp bare)) (succeeds_pure _)
      · next taken =>
        split
        · next slot isSlot =>
          have names : bindings.NamesSlot outer name := ⟨slot, .inr ⟨bound, given, isGiven, isSlot⟩⟩
          exact succeeds_cons (.inr ⟨name, rfl, names⟩) (succeeds_pure _)
        · next slotless =>
          refine succeeds_throw (refused taken ?_) _
          rintro ⟨slot, other | ⟨_, found, isFound, isSlot⟩⟩
          · nomatch bound.symm.trans other
          · obtain rfl := Option.some.inj (isGiven.symm.trans isFound)
            nomatch slotless.symm.trans isSlot
    | none =>
      dsimp only
      split
      · next bare => exact succeeds_cons (.inl (List.isEmpty_iff.mp bare)) (succeeds_pure _)
      · next taken =>
        refine succeeds_throw (refused taken ?_) _
        rintro ⟨slot, other | ⟨_, found, isFound, _⟩⟩
        · nomatch bound.symm.trans other
        · nomatch isGiven.symm.trans isFound

theorem stringOf?_eq_some_iff {term : Term} {text : String} :
    stringOf? term = some text ↔ term = ⟨.literal (.string text), []⟩ := by
  unfold stringOf?
  split
  · simp
  · next other => exact iff_of_false nofun (other text)

theorem applyTests_succeeds (subject : Compiled) (tests : List (StringOperator × Term)) :
    Succeeds bindings outer [.tests tests] (applyTests subject tests) := by
  unfold applyTests
  split
  · refine succeeds_cons ?_ (succeeds_pure _)
    exact ⟨Nat.zero_le 1, List.forall_mem_nil _⟩
  · next operator term =>
    split
    · next text isText =>
      refine succeeds_cons ⟨Nat.le_refl 1, ?_⟩ (succeeds_pure _)
      exact List.forall_mem_singleton.mpr ⟨text, stringOf?_eq_some_iff.mp isText⟩
    · next noText =>
      refine succeeds_throw ?_ _
      rintro ⟨_, literals⟩
      obtain ⟨text, isText⟩ := List.forall_mem_singleton.mp literals
      nomatch noText.symm.trans (stringOf?_eq_some_iff.mpr isText)
  · next several notOne =>
    refine succeeds_refuse ?_ _
    rintro ⟨atMostOne, _⟩
    match tests with
    | [] => exact several rfl
    | [(operator, term)] => exact notOne operator term rfl
    | _ :: _ :: _ => exact absurd atMostOne (by simp)

theorem existence_succeeds (pattern : Pattern) :
    Succeeds bindings outer [.pattern pattern] (existence bindings.settings pattern) := by
  intro state same
  have result := existence_result bindings.settings pattern same
  have sameAfter := (existence_sameSlots bindings.settings pattern state).1
  simp only [List.forall_mem_singleton, Bindings.Allows]
  generalize (existence bindings.settings pattern).run.run state = outcome at result sameAfter
  obtain ⟨_ | value, after⟩ := outcome
  · have none := Option.map_eq_none_iff.mp result.symm
    simp [none]
  · obtain ⟨embedding, isEmbedding, _⟩ := Option.map_eq_some_iff.mp result.symm
    exact ⟨by simp [isEmbedding], Eq.trans sameAfter same, trivial⟩

/-- The argument has been compiled, so its record says whether it aggregates. -/
theorem count_succeeds {function : String}
    (isCount : Text.sameIgnoringCase function "COUNT" = true) {argument : Expression}
    {compiled : Compiled} (reports : Reports bindings outer argument.ingredients [compiled])
    (distinct : Bool) :
    Succeeds bindings outer [.call function [argument]] (count compiled distinct) := by
  have aggregates : compiled.aggregates = true ↔
      ∃ ingredient ∈ argument.ingredients, bindings.aggregates outer ingredient = true := by
    rw [← reports.aggregates]
    simp
  unfold count
  split
  · next nested =>
    obtain ⟨ingredient, isOne, isAggregate⟩ := aggregates.mp nested
    refine succeeds_refuse ?_ _
    rintro ⟨_, other, ⟨⟩, none⟩
    exact Bool.false_ne_true ((none ingredient isOne).symm.trans isAggregate)
  · next flat =>
    refine succeeds_cons ⟨isCount, argument, rfl, fun ingredient isOne => ?_⟩ (succeeds_pure _)
    exact Bool.eq_false_iff.mpr fun isAggregate => flat (aggregates.mpr ⟨ingredient, isOne, isAggregate⟩)

end

/-! ## Whole expressions -/

section

variable {bindings : Bindings} {outer : Graph}

mutual

theorem compile_succeeds : ∀ expression : Expression,
    Succeeds bindings outer expression.constructs (compile bindings expression)
  | ⟨[]⟩ => succeeds_refuse (by simp [Bindings.Allows]) _
  | ⟨[only]⟩ => succeeds_only nofun (compileExclusion_succeeds true only)
  | ⟨first :: second :: rest⟩ =>
    succeeds_cons nofun (succeeds_map (compileExclusions_succeeds (first :: second :: rest)))

theorem compileExclusions_succeeds : ∀ operands,
    Succeeds bindings outer (exclusionsConstructs operands) (compileExclusions bindings operands)
  | [] => succeeds_pure []
  | operand :: rest =>
    succeeds_bind (compileExclusion_succeeds false operand) fun _ _ =>
      succeeds_map (compileExclusions_succeeds rest)

theorem compileExclusion_succeeds (whole : Bool) : ∀ operand : Exclusion,
    Succeeds bindings outer operand.constructs (compileExclusion bindings whole operand)
  | ⟨[]⟩ => succeeds_refuse (by simp [Bindings.Allows]) _
  | ⟨[only]⟩ => succeeds_only rfl (compileConjunction_succeeds whole only)
  | ⟨_ :: _ :: _⟩ => succeeds_refuse (by simp [Bindings.Allows]) _

theorem compileConjunction_succeeds (whole : Bool) : ∀ operand : Conjunction,
    Succeeds bindings outer operand.constructs (compileConjunction bindings whole operand)
  | ⟨[]⟩ => succeeds_refuse (by simp [Bindings.Allows]) _
  | ⟨[only]⟩ => succeeds_only nofun (compileComparison_succeeds whole only)
  | ⟨first :: second :: rest⟩ =>
    succeeds_cons nofun (succeeds_map (compileComparisons_succeeds (first :: second :: rest)))

theorem compileComparisons_succeeds : ∀ operands,
    Succeeds bindings outer (comparisonsConstructs operands) (compileComparisons bindings operands)
  | [] => succeeds_pure []
  | operand :: rest =>
    succeeds_bind (compileComparison_succeeds false operand) fun _ _ =>
      succeeds_map (compileComparisons_succeeds rest)

theorem compileComparison_succeeds (whole : Bool) : ∀ operand : Comparison,
    Succeeds bindings outer operand.constructs (compileComparison bindings whole operand)
  | ⟨_, left, rest⟩ =>
    succeeds_bind (compileAddition_succeeds _ left) fun first _ =>
      succeeds_map (compileCompared_succeeds first rest)

theorem compileCompared_succeeds (first : Compiled) : ∀ rest,
    Succeeds bindings outer (.comparisons rest :: comparedConstructs rest)
      (compileCompared bindings first rest)
  | [] => succeeds_cons (Nat.zero_le 1) (succeeds_pure first)
  | [(_, right)] =>
    succeeds_only (Nat.le_refl 1) (succeeds_map (compileAddition_succeeds false right))
  | _ :: _ :: _ => succeeds_refuse (by simp [Bindings.Allows]) _

theorem compileAddition_succeeds (whole : Bool) : ∀ operand : Addition,
    Succeeds bindings outer operand.constructs (compileAddition bindings whole operand)
  | ⟨first, rest⟩ =>
    succeeds_bind (compileMultiplication_succeeds _ first) fun _ _ =>
      succeeds_map (compileAdded_succeeds rest)

theorem compileAdded_succeeds : ∀ rest,
    Succeeds bindings outer (addedConstructs rest) (compileAdded bindings rest)
  | [] => succeeds_pure []
  | (_, operand) :: rest =>
    succeeds_bind (compileMultiplication_succeeds false operand) fun _ _ =>
      succeeds_map (compileAdded_succeeds rest)

theorem compileMultiplication_succeeds (whole : Bool) : ∀ operand : Multiplication,
    Succeeds bindings outer operand.constructs (compileMultiplication bindings whole operand)
  | ⟨first, rest⟩ =>
    succeeds_bind (compilePower_succeeds _ first) fun _ _ =>
      succeeds_map (compileMultiplied_succeeds rest)

theorem compileMultiplied_succeeds : ∀ rest,
    Succeeds bindings outer (multipliedConstructs rest) (compileMultiplied bindings rest)
  | [] => succeeds_pure []
  | (_, operand) :: rest =>
    succeeds_bind (compilePower_succeeds false operand) fun _ _ =>
      succeeds_map (compileMultiplied_succeeds rest)

theorem compilePower_succeeds (whole : Bool) : ∀ operand : Power,
    Succeeds bindings outer operand.constructs (compilePower bindings whole operand)
  | ⟨[]⟩ => succeeds_refuse (by simp [Bindings.Allows]) _
  | ⟨[only]⟩ => succeeds_only nofun (compileSigned_succeeds whole only)
  | ⟨first :: second :: rest⟩ =>
    succeeds_cons nofun (succeeds_bind (compileSigned_succeeds false first) fun _ _ =>
      succeeds_map (compileSigneds_succeeds (second :: rest)))

theorem compileSigneds_succeeds : ∀ operands,
    Succeeds bindings outer (signedsConstructs operands) (compileSigneds bindings operands)
  | [] => succeeds_pure []
  | operand :: rest =>
    succeeds_bind (compileSigned_succeeds false operand) fun _ _ =>
      succeeds_map (compileSigneds_succeeds rest)

theorem compileSigned_succeeds (whole : Bool) : ∀ operand : Signed,
    Succeeds bindings outer operand.constructs (compileSigned bindings whole operand)
  | ⟨_, term, tests⟩ =>
    succeeds_bind (compileTerm_succeeds _ term) fun subject _ =>
      succeeds_map (applyTests_succeeds subject tests)

theorem compileTerm_succeeds (whole : Bool) : ∀ term : Term,
    Succeeds bindings outer term.constructs (compileTerm bindings whole term)
  | ⟨.name name, path⟩ => compileName_succeeds name path
  | ⟨.literal value, path⟩ =>
    succeeds_bind (requireNoPath_succeeds (by simp) path) fun _ _ =>
      compileAtom_succeeds whole (.literal value)
  | ⟨.call name distinct arguments, path⟩ =>
    succeeds_bind (requireNoPath_succeeds (by simp) path) fun _ _ =>
      compileAtom_succeeds whole (.call name distinct arguments)
  | ⟨.countAll, path⟩ =>
    succeeds_bind (requireNoPath_succeeds (by simp) path) fun _ _ => compileAtom_succeeds whole .countAll
  | ⟨.parenthesized inner, path⟩ =>
    succeeds_bind (requireNoPath_succeeds (by simp) path) fun _ _ =>
      compileAtom_succeeds whole (.parenthesized inner)
  | ⟨.pattern pattern, path⟩ =>
    succeeds_bind (requireNoPath_succeeds (by simp) path) fun _ _ =>
      compileAtom_succeeds whole (.pattern pattern)

theorem compileAtom_succeeds (whole : Bool) : ∀ atom : Atom,
    Succeeds bindings outer atom.constructs (compileAtom bindings whole atom)
  | .name name =>
    succeeds_congr (by simp [Bindings.Allows, Atom.constructs]) (compileName_succeeds name [])
  | .literal _ => succeeds_pure _
  | .call name distinct arguments => by
    rw [compileAtom]
    split
    · next isCount => exact compileCount_succeeds isCount distinct arguments
    · next other => exact succeeds_throw (by simp [Bindings.Allows, other]) _
  | .countAll => succeeds_pure _
  | .parenthesized inner => succeeds_map (compile_succeeds inner)
  | .pattern pattern => existence_succeeds pattern

theorem compileCount_succeeds {function : String}
    (isCount : Text.sameIgnoringCase function "COUNT" = true) (distinct : Bool) :
    ∀ arguments : List Expression,
      Succeeds bindings outer (.call function arguments :: argumentsConstructs arguments)
        (compileCount bindings distinct arguments)
  | [argument] => by
    have succeeds := succeeds_bind
      ((compile_succeeds argument).performs (compile_accounts argument)) fun _ reports =>
        count_succeeds isCount reports distinct
    -- The argument is compiled before it is known what it counts.
    refine succeeds_congr ?_ succeeds
    rw [argumentsConstructs, argumentsConstructs, List.append_nil, List.forall_mem_append,
      List.forall_mem_singleton, List.forall_mem_cons, and_comm]
  | [] => succeeds_refuse (by simp [Bindings.Allows]) _
  | _ :: _ :: _ => succeeds_refuse (by simp [Bindings.Allows]) _

end

end

/-- An expression compiles exactly where all its constructs are allowed, in every graph and whatever
names were given to. -/
theorem compile_succeeds_iff (bindings : Bindings) (expression : Expression)
    (state : CompilerState) :
    (∃ compiled, ((compile bindings expression).run.run state).1 = .ok compiled) ↔
      ∀ construct ∈ expression.constructs, bindings.Allows state.graph construct := by
  have succeeds : Succeeds bindings state.graph expression.constructs (compile bindings expression) :=
    compile_succeeds expression
  have outcome := succeeds state rfl
  generalize (compile bindings expression).run.run state = result at outcome ⊢
  obtain ⟨_ | compiled, after⟩ := result
  · exact iff_of_false nofun outcome
  · exact iff_of_true ⟨compiled, rfl⟩ outcome.1

end Compilation

end CypherSql
