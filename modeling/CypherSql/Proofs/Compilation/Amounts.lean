import CypherSql.Proofs.Compilation.Reports
import CypherSql.Proofs.Compilation.Runs
import CypherSql.Proofs.Compilation.Variables
import CypherSql.Proofs.Cypher.Definitions

/-! # What an expression amounts to, compiled

A name that is no variable compiles to what its definition compiled to where it was given, so what
an expression uses and what it amounts to can be seen in what it compiles to.

* `Knows` — the names that are known behind events, and what they were given to.
* `Run.knows` — the draft behind events knows them.
* `Knows.usesAggregate_iff` — an expression aggregates where it uses an aggregate.
* `Composite` — an operator is applied in what an expression compiles to.
* `Knows.exists_amountsTo` — anything else amounts to a term.
* `Knows.isCount_iff` — an expression is an aggregate as a whole where it is one call of `COUNT`.
-/

namespace CypherSql.Compilation

open CypherSql.Cypher
open CypherSql.Graph (Slot)
open CypherSql.Sql (Fragment Lexeme)

/-! ## Known names -/

/-- Behind these events, an expression compiles to this. -/
def CompilesTo (settings : Settings) (earlier : List Event) (expression : Expression)
    (compiled : Compiled) : Prop :=
  ∃ draft next, Run (.start settings) earlier draft ∧
    draft.progress.compile expression = .ok (compiled, next)

/-- The names that are known behind events, and what they were given to. -/
structure Knows (settings : Settings) (events : List Event) (progress : Progress) : Prop where
  sound : Sound settings (fun _ => True) (namesAfter events) progress
  given : ∀ name, Option.Rel (fun definition => CompilesTo settings definition.1 definition.2)
    (given? events name) (progress.bindings.find? name)

section

variable {settings : Settings} {events : List Event} {progress next : Progress}
  {expression : Expression} {compiled : Compiled}

theorem knows_start (settings : Settings) : Knows settings [] (.start settings) where
  sound := sound_start settings _
  given _ := .none

theorem Knows.of_compile (knows : Knows settings events progress)
    (compiles : progress.compile expression = .ok (compiled, next)) :
    Knows settings events next where
  sound := knows.sound.of_compile compiles
  given := (Progress.compile_ok compiles).2.1 ▸ knows.given

/-- What an event does not give keeps its meaning. -/
theorem Knows.given_concat {event : Event} (knows : Knows settings events progress) {name : String}
    (other : Stage.gives? name ⟨events, event⟩ = none)
    (same : next.bindings = progress.bindings) :
    Option.Rel (fun definition => CompilesTo settings definition.1 definition.2)
      (given? (events ++ [event]) name) (next.bindings.find? name) := by
  rw [given?_concat, other, same]
  exact knows.given name

theorem Step.knows {draft after : Draft} {event : Event} (step : Step draft event after)
    (reached : Run (.start settings) events draft)
    (knows : Knows settings events draft.progress) :
    Knows settings (events ++ [event]) after.progress where
  sound := namesAfter_concat events event ▸ step.sound knows.sound fun _ _ _ _ _ => trivial
  given name := by
    cases step with
    | mention => exact knows.given_concat rfl rfl
    | filter compiles | pass compiles | list compiles =>
      exact knows.given_concat rfl (Progress.compile_ok compiles).2.1
    | keep compiles unnamed =>
      exact knows.given_concat (by simp [Stage.gives?, unnamed]) (Progress.compile_ok compiles).2.1
    | @give item found compiled next compiles named =>
      dsimp only
      rw [Bindings.find?_bind]
      by_cases same : found = name
      · rw [if_pos same, given?_concat, Stage.gives?, if_pos (same ▸ named)]
        exact .some ⟨draft, next, reached, compiles⟩
      · have other : Stage.gives? name ⟨events, .give item⟩ = none := by
          simp [Stage.gives?, named, same]
        rw [if_neg same, given?_concat, other, (Progress.compile_ok compiles).2.1]
        exact knows.given name

theorem Run.knows_append {earlier : List Event} {draft final : Draft}
    (run : Run draft events final) (reached : Run (.start settings) earlier draft)
    (knows : Knows settings earlier draft.progress) :
    Knows settings (earlier ++ events) final.progress := by
  induction run generalizing earlier with
  | nil => rwa [List.append_nil]
  | @cons _ _ _ event rest step _ ih =>
    have behind := ih (reached.append (.single step)) (step.knows reached knows)
    rwa [List.append_assoc] at behind

/-- Events lead to a draft that knows what they define. -/
theorem Run.knows {final : Draft} (run : Run (.start settings) events final) :
    Knows settings events final.progress :=
  run.knows_append (.nil _) (knows_start settings)

namespace Knows

variable (knows : Knows settings events progress)

include knows

theorem not_mem_bound_iff {name : String} :
    name ∉ (namesAfter events).bound ↔ progress.graph.slot? name = none := by
  rw [knows.sound.bound]
  simp

/-- A name with a definition stands for what that compiled to. -/
theorem exists_of_definition? {name : String} {earlier : List Event} {inner : Expression}
    (isDefined : definition? events name = some (earlier, inner)) :
    progress.graph.slot? name = none ∧ ∃ found, progress.bindings.find? name = some found ∧
      CompilesTo settings earlier inner found := by
  obtain ⟨unbound, isGiven⟩ := definition?_eq_some.mp isDefined
  have stands := knows.given name
  rw [isGiven] at stands
  generalize progress.bindings.find? name = result at stands
  cases stands with
  | some compiles => exact ⟨knows.not_mem_bound_iff.mp unbound, _, rfl, compiles⟩

/-- What a name stands for was compiled where it was given. -/
theorem exists_definition? {name : String} {found : Compiled}
    (unbound : progress.graph.slot? name = none)
    (isFound : progress.bindings.find? name = some found) :
    ∃ earlier inner, definition? events name = some (earlier, inner) ∧
      CompilesTo settings earlier inner found := by
  have stands := knows.given name
  rw [isFound] at stands
  generalize isGiven : given? events name = result at stands
  cases stands with
  | some compiles =>
    exact ⟨_, _, definition?_eq_some.mpr ⟨knows.not_mem_bound_iff.mpr unbound, isGiven⟩, compiles⟩

end Knows

/-! ## Aggregates -/

theorem Progress.aggregates_iff (compiles : progress.compile expression = .ok (compiled, next)) :
    compiled.aggregates = true ↔ ∃ ingredient ∈ expression.ingredients,
      progress.bindings.aggregates progress.graph ingredient = true := by
  obtain ⟨state, ran, -⟩ := Progress.compile_run compiles
  rw [← (reports_of_compile (congrArg Prod.fst ran)).aggregates]
  simp

theorem Bindings.aggregates_eq_true {bindings : Bindings} {graph : Graph}
    {ingredient : Ingredient} : bindings.aggregates graph ingredient = true ↔
      ingredient.aggregates = true ∨ ∃ name found, ingredient = .name name [] ∧
        graph.slot? name = none ∧ bindings.find? name = some found ∧
          found.aggregates = true := by
  cases ingredient with
  | name name path =>
    simp only [Bindings.aggregates, Ingredient.aggregates]
    cases bound : graph.slot? name with
    | some slot => simp [bound]
    | none => cases isFound : bindings.find? name <;> simp [bound, isFound]
  | literal | call | countAll | pattern => simp [Bindings.aggregates]

end

namespace Knows

/-- An expression aggregates exactly where it uses an aggregate. -/
theorem usesAggregate_iff {settings : Settings} {events : List Event} {progress next : Progress}
    {expression : Expression} {compiled : Compiled} (knows : Knows settings events progress)
    (compiles : progress.compile expression = .ok (compiled, next)) :
    compiled.aggregates = true ↔ UsesAggregate events expression := by
  -- A definition is older than its use.
  induction isLength : events.length using Nat.strong_induction_on
    generalizing events progress next expression compiled with
  | _ length ih =>
    subst isLength
    simp only [Progress.aggregates_iff compiles, Bindings.aggregates_eq_true]
    constructor
    · rintro ⟨ingredient, isOne, aggregates | ⟨name, found, rfl, unbound, isFound, aggregates⟩⟩
      · exact .written isOne aggregates
      · obtain ⟨earlier, inner, isDefined, draft, after, run, compilesInner⟩ :=
          knows.exists_definition? unbound isFound
        have older := length_lt_of_definition? isDefined
        exact .named isOne isDefined ((ih _ older run.knows compilesInner rfl).mp aggregates)
    · intro uses
      cases uses with
      | written isOne aggregates => exact ⟨_, isOne, .inl aggregates⟩
      | @named _ earlier _ inner name isOne isDefined uses =>
        obtain ⟨unbound, found, isFound, draft, after, run, compilesInner⟩ :=
          knows.exists_of_definition? isDefined
        have older := length_lt_of_definition? isDefined
        exact ⟨_, isOne, .inr ⟨name, found, rfl, unbound, isFound,
          (ih _ older run.knows compilesInner rfl).mpr uses⟩⟩

end Knows

/-! ## Operators -/

/-- A word of an operator, or a bracket. -/
def isSymbol : Lexeme → Bool
  | .compare _ | .add _ | .multiply _ | .like | .negate | .not | .and | .or | .comma | .opening
  | .closing => true
  | _ => false

/-- An operator was applied to make this. -/
structure Composite (compiled : Compiled) : Prop where
  slot : compiled.slot = none
  aggregate : compiled.aggregate = none
  symbol : ∃ lexeme ∈ compiled.sql, isSymbol lexeme = true

theorem composite_ofParts {sql : Fragment} {lexeme : Lexeme} (parts : List Compiled)
    (isOne : lexeme ∈ sql) (symbol : isSymbol lexeme = true) : Composite (.ofParts sql parts) :=
  ⟨rfl, rfl, lexeme, isOne, symbol⟩

theorem composite_steps {operator : Lexeme} (symbol : isSymbol operator = true)
    (first part : Compiled) (rest : List (Lexeme × Compiled)) :
    Composite (.steps first ((operator, part) :: rest)) :=
  composite_ofParts _ (by simp) symbol

/-- Whatever the computation yields, an operator was applied to make it. -/
abbrev Operates (computation : Compile Compiled) : Prop :=
  Meets (fun _ _ => True) Composite computation

section

variable {α : Type} {bindings : Bindings}

theorem operates_bind {first : Compile α} {next : α → Compile Compiled}
    (operates : ∀ value, Operates (next value)) : Operates (first >>= next) :=
  meets_bind_any (fun _ _ _ _ _ => trivial) (fun _ => ⟨trivial, fun _ _ => trivial⟩) operates

theorem operates_pure {compiled : Compiled} (composite : Composite compiled) :
    Operates (pure compiled) :=
  meets_pure (fun _ => trivial) composite

theorem operates_refuse (shape : Sql.Malformation) : Operates (refuse shape) :=
  meets_refuse (fun _ => trivial) shape

/-! Each level of precedence is a term alone, or an operator is applied in it. -/

theorem compileSigned_term_or_operates (whole : Bool) : ∀ operand : Signed,
    (∃ term, operand = ⟨false, term, []⟩) ∨ Operates (compileSigned bindings whole operand)
  | ⟨true, term, tests⟩ => by
    refine .inr (operates_bind fun subject => operates_bind fun tested => operates_pure ?_)
    exact composite_ofParts _ List.mem_cons_self rfl
  | ⟨false, term, []⟩ => .inl ⟨term, rfl⟩
  | ⟨false, term, [(operator, operand)]⟩ => by
    refine .inr (operates_bind fun subject => ?_)
    simp only [applyTests]
    cases stringOf? operand with
    | some text =>
      have there : .like ∈ subject.operand ++
          [.like, .literal (.string (likePattern operator text))] := by simp
      exact operates_pure (composite_ofParts _ there rfl)
    | none =>
      have fails : Meets (fun _ _ => True) (fun _ => False)
          (throw (.invalidStringOperand operand.text) : Compile Compiled) :=
        meets_throw (fun _ => trivial) _
      exact meets_bind (fun _ _ _ _ _ => trivial) fails fun _ never => never.elim
  | ⟨false, term, _ :: _ :: _⟩ => .inr (operates_bind fun subject => operates_refuse _)

/-- The call that a power ends in has a bracket. -/
theorem opening_mem_powerOf {first : Fragment} {rest : List Fragment}
    (present : .opening ∈ first ∨ rest ≠ []) : .opening ∈ powerOf first rest := by
  induction rest generalizing first with
  | nil => simpa [powerOf] using present
  | cons exponent rest ih =>
    rw [powerOf, List.foldl_cons, ← powerOf]
    exact ih (.inl (by simp))

theorem compilePower_term_or_operates (whole : Bool) (operand : Power) :
    (∃ term, operand = ⟨[⟨false, term, []⟩]⟩) ∨ Operates (compilePower bindings whole operand) := by
  rcases operand with ⟨_ | ⟨first, _ | ⟨second, rest⟩⟩⟩
  · exact .inr (operates_refuse _)
  · exact (compileSigned_term_or_operates whole first).imp_left
      (Exists.imp fun _ => congrArg fun only => Power.mk [only])
  · refine .inr ?_
    simp only [compilePower, compileSigneds, bind_assoc, pure_bind]
    refine operates_bind fun base => operates_bind fun exponent => operates_bind fun others => ?_
    exact operates_pure (composite_ofParts _ (opening_mem_powerOf (.inr (by simp))) rfl)

theorem compileMultiplication_term_or_operates (whole : Bool) : ∀ operand : Multiplication,
    (∃ term, operand = ⟨⟨[⟨false, term, []⟩]⟩, []⟩) ∨
      Operates (compileMultiplication bindings whole operand)
  | ⟨first, []⟩ => by
    have alone : compileMultiplication bindings whole ⟨first, []⟩ =
        compilePower bindings whole first := by
      simp [compileMultiplication, compileMultiplied]
    rw [alone]
    exact (compilePower_term_or_operates whole first).imp_left
      (Exists.imp fun _ => congrArg fun only => Multiplication.mk only [])
  | ⟨first, (operator, operand) :: rest⟩ => by
    refine .inr ?_
    simp only [compileMultiplication, compileMultiplied, bind_assoc, pure_bind]
    refine operates_bind fun left => operates_bind fun right => operates_bind fun others => ?_
    exact operates_pure (composite_steps rfl _ _ _)

theorem compileAddition_term_or_operates (whole : Bool) : ∀ operand : Addition,
    (∃ term, operand = ⟨⟨⟨[⟨false, term, []⟩]⟩, []⟩, []⟩) ∨
      Operates (compileAddition bindings whole operand)
  | ⟨first, []⟩ => by
    have alone : compileAddition bindings whole ⟨first, []⟩ =
        compileMultiplication bindings whole first := by
      simp [compileAddition, compileAdded]
    rw [alone]
    exact (compileMultiplication_term_or_operates whole first).imp_left
      (Exists.imp fun _ => congrArg fun only => Addition.mk only [])
  | ⟨first, (operator, operand) :: rest⟩ => by
    refine .inr ?_
    simp only [compileAddition, compileAdded, bind_assoc, pure_bind]
    refine operates_bind fun left => operates_bind fun right => operates_bind fun others => ?_
    exact operates_pure (composite_steps rfl _ _ _)

theorem compileComparison_term_or_operates (whole : Bool) : ∀ operand : Comparison,
    (∃ term, operand = ⟨false, ⟨⟨⟨[⟨false, term, []⟩]⟩, []⟩, []⟩, []⟩) ∨
      Operates (compileComparison bindings whole operand)
  | ⟨true, left, rest⟩ => by
    refine .inr (operates_bind fun first => operates_bind fun compared => operates_pure ?_)
    exact composite_ofParts _ List.mem_cons_self rfl
  | ⟨false, left, []⟩ => by
    have alone : compileComparison bindings whole ⟨false, left, []⟩ =
        compileAddition bindings whole left := by
      simp [compileComparison, compileCompared]
    rw [alone]
    exact (compileAddition_term_or_operates whole left).imp_left
      (Exists.imp fun _ => congrArg fun only => Comparison.mk false only [])
  | ⟨false, left, [(operator, right)]⟩ => by
    refine .inr (operates_bind fun first => ?_)
    simp only [compileCompared, bind_assoc, pure_bind]
    exact operates_bind fun second => operates_pure (composite_steps rfl _ _ _)
  | ⟨false, left, _ :: _ :: _⟩ => .inr (operates_bind fun first => operates_refuse _)

theorem compileConjunction_term_or_operates (whole : Bool) (operand : Conjunction) :
    (∃ term, operand = ⟨[⟨false, ⟨⟨⟨[⟨false, term, []⟩]⟩, []⟩, []⟩, []⟩]⟩) ∨
      Operates (compileConjunction bindings whole operand) := by
  rcases operand with ⟨_ | ⟨first, _ | ⟨second, rest⟩⟩⟩
  · exact .inr (operates_refuse _)
  · exact (compileComparison_term_or_operates whole first).imp_left
      (Exists.imp fun _ => congrArg fun only => Conjunction.mk [only])
  · refine .inr ?_
    simp only [compileConjunction, compileComparisons, bind_assoc, pure_bind]
    refine operates_bind fun left => operates_bind fun right => operates_bind fun others => ?_
    have there : .and ∈ Fragment.joined .and ((left :: right :: others).map Compiled.operand) := by
      simp [Fragment.joined_cons]
    exact operates_pure (composite_ofParts _ there rfl)

theorem compileExclusion_term_or_operates (whole : Bool) (operand : Exclusion) :
    (∃ term, operand = ⟨[⟨[⟨false, ⟨⟨⟨[⟨false, term, []⟩]⟩, []⟩, []⟩, []⟩]⟩]⟩) ∨
      Operates (compileExclusion bindings whole operand) := by
  rcases operand with ⟨_ | ⟨first, _ | ⟨second, rest⟩⟩⟩
  · exact .inr (operates_refuse _)
  · exact (compileConjunction_term_or_operates whole first).imp_left
      (Exists.imp fun _ => congrArg fun only => Exclusion.mk [only])
  · exact .inr (operates_refuse _)

theorem compile_term_or_operates (expression : Expression) :
    (∃ term, expression.term? = some term) ∨ Operates (compile bindings expression) := by
  rcases expression with ⟨_ | ⟨first, _ | ⟨second, rest⟩⟩⟩
  · exact .inr (operates_refuse _)
  · exact (compileExclusion_term_or_operates true first).imp_left
      (Exists.imp fun _ => congrArg fun only => Expression.term? ⟨[only]⟩)
  · refine .inr ?_
    simp only [compile, compileExclusions, bind_assoc, pure_bind]
    refine operates_bind fun left => operates_bind fun right => operates_bind fun others => ?_
    refine operates_pure ⟨rfl, rfl, .or, ?_, rfl⟩
    simp [Compiled.disjunction, Compiled.chain, Compiled.ofParts, Compiled.scalar,
      Fragment.joined_cons]

/-- Where no operator is applied, an expression is compiled as its term. -/
theorem compile_of_term? {expression : Expression} {term : Term}
    (isTerm : expression.term? = some term) :
    compile bindings expression = compileTerm bindings true term := by
  obtain rfl := term?_eq_some isTerm
  simp [compile, compileExclusion, compileConjunction, compileComparison, compileAddition,
    compileMultiplication, compilePower, compileSigned, compileMultiplied, compileAdded,
    compileCompared, applyTests]

end

/-! ## Terms -/

/-- All that a term compiles to that is neither in parentheses nor a name with a definition. -/
inductive TermMeans (settings : Settings) (events : List Event) : Term → Compiled → Prop where
  | slot (name : String) (slot : Slot) (path : List String) :
      TermMeans settings events ⟨.name name, path⟩ (compileSlot slot path)
  | word {name : String} (unbound : name ∉ (namesAfter events).bound)
      (ungiven : given? events name = none) :
      TermMeans settings events ⟨.name name, []⟩ (.scalar [.word name])
  | literal (value : Literal) :
      TermMeans settings events ⟨.literal value, []⟩ (.scalar [.literal value])
  | countAll : TermMeans settings events ⟨.countAll, []⟩ (.ofAggregate (.count false) [.star] [])
  | counted {function : String} (isCount : Text.sameIgnoringCase function "COUNT" = true)
      (distinct : Bool) (arguments : List Expression) (argument : Compiled) :
      TermMeans settings events ⟨.call function distinct arguments, []⟩
        (.ofAggregate (.count distinct) (counted argument distinct) [argument])
  | test (pattern : Pattern) (embedding : Embedding) :
      TermMeans settings events ⟨.pattern pattern, []⟩
        { Compiled.scalar [.existing (embedding.subselect settings)] with
          reads := embedding.touched }

section

variable {settings : Settings} {events : List Event} {progress next : Progress}
  {expression : Expression} {compiled : Compiled}

theorem run_compileName (bindings : Bindings) (name : String) (path : List String)
    (state : CompilerState) : (compileName bindings name path).run.run state =
      (match state.graph.slot? name, bindings.find? name with
        | some slot, _ => .ok (compileSlot slot path)
        | none, some found =>
          if path.isEmpty then .ok found
          else match found.slot with
            | some slot => .ok (compileSlot slot path)
            | none => .error (.binding (.variableNotFound name))
        | none, none =>
          if path.isEmpty then .ok (.scalar [.word name])
          else .error (.binding (.variableNotFound name)), state) := by
  have read : (get : Compile CompilerState).run.run state = (.ok state, state) := rfl
  rw [compileName, run_bind, read]
  dsimp only
  cases state.graph.slot? name with
  | some slot => rfl
  | none =>
    cases bindings.find? name with
    | none => cases path <;> rfl
    | some found =>
      cases path with
      | nil => rfl
      | cons => cases isSlot : found.slot <;> simp [isSlot] <;> rfl

theorem meets_compileCount (bindings : Bindings) (distinct : Bool) (arguments : List Expression) :
    Meets (fun _ _ => True) (fun compiled => ∃ argument,
        compiled = .ofAggregate (.count distinct) (counted argument distinct) [argument])
      (compileCount bindings distinct arguments) := by
  unfold compileCount
  split
  · refine meets_bind_any (fun _ _ _ _ _ => trivial) (fun _ => ⟨trivial, fun _ _ => trivial⟩) ?_
    intro argument
    unfold count
    split
    · exact meets_refuse (fun _ => trivial) _
    · exact meets_pure (fun _ => trivial) ⟨argument, rfl⟩
  · exact meets_refuse (fun _ => trivial) _

end

theorem Progress.compile_of_run {progress : Progress} {expression : Expression}
    {compiled : Compiled} {state : CompilerState}
    (ran : (Compilation.compile progress.bindings expression).run.run
      ⟨progress.graph, progress.nextPattern⟩ = (.ok compiled, state)) :
    progress.compile expression = .ok (compiled,
      { progress with graph := state.graph, nextPattern := state.nextPattern }) := by
  simp only [Progress.compile, ran]

/-- Parentheses around a whole expression change nothing. -/
theorem compileTerm_parenthesized (bindings : Bindings) (inner : Expression) :
    compileTerm bindings true ⟨.parenthesized inner, []⟩ = compile bindings inner := by
  simp [compileTerm, compileAtom, requireNoPath]

/-- A property is taken from names only. -/
theorem path_eq_nil {bindings : Bindings} {atom : Atom} {path : List String} {compiled : Compiled}
    {whole : Bool} {state after : CompilerState} (other : ∀ name, atom ≠ .name name)
    (ran : (compileTerm bindings whole ⟨atom, path⟩).run.run state = (.ok compiled, after)) :
    path = [] := by
  cases path with
  | nil => rfl
  | cons property path =>
    cases atom with
    | name name => exact absurd rfl (other name)
    | literal | call | countAll | parenthesized | pattern => nomatch ran

namespace Knows

variable {settings : Settings} {events : List Event} {progress next : Progress}
  {expression : Expression} {compiled : Compiled} (knows : Knows settings events progress)

include knows

/-- What a name compiles to. -/
theorem compileName_ok {name : String} {path : List String} {state : CompilerState}
    (ran : (compileName progress.bindings name path).run.run
      ⟨progress.graph, progress.nextPattern⟩ = (.ok compiled, state)) :
    TermMeans settings events ⟨.name name, path⟩ compiled ∨
      path = [] ∧ ∃ earlier inner, definition? events name = some (earlier, inner) ∧
        CompilesTo settings earlier inner compiled := by
  rw [run_compileName] at ran
  replace ran := congrArg Prod.fst ran
  dsimp only at ran
  cases bound : progress.graph.slot? name with
  | some slot =>
    rw [bound] at ran
    obtain rfl := Except.ok.inj ran
    exact .inl (.slot name slot path)
  | none =>
    rw [bound] at ran
    cases isFound : progress.bindings.find? name with
    | none =>
      rw [isFound] at ran
      dsimp only at ran
      split at ran
      · next empty =>
        obtain rfl := Except.ok.inj ran
        obtain rfl : path = [] := by simpa using empty
        have stands := knows.given name
        rw [isFound] at stands
        exact .inl (.word (knows.not_mem_bound_iff.mpr bound) (eq_none_of_rel stands))
      · contradiction
    | some found =>
      rw [isFound] at ran
      dsimp only at ran
      split at ran
      · next empty =>
        obtain rfl := Except.ok.inj ran
        exact .inr ⟨by simpa using empty, knows.exists_definition? bound isFound⟩
      · cases isSlot : found.slot with
        | none => simp [isSlot] at ran
        | some slot =>
          rw [isSlot] at ran
          obtain rfl := Except.ok.inj ran
          exact .inl (.slot name slot path)

/-- A term has one of these meanings, or one looks through it. -/
theorem compileTerm_ok {term : Term} {state : CompilerState}
    (ran : (compileTerm progress.bindings true term).run.run
      ⟨progress.graph, progress.nextPattern⟩ = (.ok compiled, state)) :
    TermMeans settings events term compiled ∨
      (∃ inner, term = ⟨.parenthesized inner, []⟩ ∧
        (compile progress.bindings inner).run.run ⟨progress.graph, progress.nextPattern⟩ =
          (.ok compiled, state)) ∨
      ∃ name earlier inner, term = ⟨.name name, []⟩ ∧
        definition? events name = some (earlier, inner) ∧
        CompilesTo settings earlier inner compiled := by
  obtain ⟨atom, path⟩ := term
  cases atom with
  | name name =>
    rcases knows.compileName_ok ran with means | ⟨rfl, earlier, inner, isDefined, compiles⟩
    · exact .inl means
    · exact .inr (.inr ⟨name, earlier, inner, rfl, isDefined, compiles⟩)
  | literal value =>
    obtain rfl := path_eq_nil (by simp) ran
    obtain rfl := Except.ok.inj (congrArg Prod.fst ran)
    exact .inl (.literal value)
  | countAll =>
    obtain rfl := path_eq_nil (by simp) ran
    obtain rfl := Except.ok.inj (congrArg Prod.fst ran)
    exact .inl .countAll
  | call function distinct arguments =>
    obtain rfl := path_eq_nil (by simp) ran
    have ran : (compileAtom progress.bindings true (.call function distinct arguments)).run.run
        ⟨progress.graph, progress.nextPattern⟩ = (.ok compiled, state) := ran
    rw [compileAtom] at ran
    split at ran
    · next isCount =>
      obtain ⟨argument, rfl⟩ :=
        (meets_compileCount _ distinct arguments _).2 compiled (congrArg Prod.fst ran)
      exact .inl (.counted isCount distinct arguments argument)
    · nomatch ran
  | parenthesized inner =>
    obtain rfl := path_eq_nil (by simp) ran
    rw [compileTerm_parenthesized] at ran
    exact .inr (.inl ⟨inner, rfl, ran⟩)
  | pattern pattern =>
    obtain rfl := path_eq_nil (by simp) ran
    have ran : (existence progress.bindings.settings pattern).run.run
        ⟨progress.graph, progress.nextPattern⟩ = (.ok compiled, state) := ran
    rw [knows.sound.settings, run_existence] at ran
    replace ran := congrArg Prod.fst ran
    dsimp only at ran
    generalize StateT.run _ _ = outcome at ran
    obtain ⟨_ | embedding, _⟩ := outcome
    · contradiction
    · obtain rfl := Except.ok.inj ran
      exact .inl (.test pattern embedding)

end Knows

/-- Where no operator is applied, an expression amounts to a term. -/
theorem Knows.exists_amountsTo {settings : Settings} {events : List Event}
    {progress next : Progress} (knows : Knows settings events progress) (expression : Expression)
    {compiled : Compiled} (compiles : progress.compile expression = .ok (compiled, next)) :
    Composite compiled ∨ ∃ earlier term, AmountsTo events expression earlier term ∧
      TermMeans settings earlier term compiled := by
  obtain ⟨state, ran, -⟩ := Progress.compile_run compiles
  rcases compile_term_or_operates expression with ⟨term, isTerm⟩ | operates
  · rw [compile_of_term? isTerm] at ran
    rcases knows.compileTerm_ok ran with means | ⟨inner, rfl, ranInner⟩ |
      ⟨name, earlier, inner, rfl, isDefined, draft, after, run, compilesInner⟩
    · exact .inr ⟨events, term, .term isTerm, means⟩
    · have smaller : sizeOf inner < sizeOf expression := by
        rw [term?_eq_some isTerm]
        simp
        omega
      refine (knows.exists_amountsTo inner (Progress.compile_of_run ranInner)).imp_right ?_
      rintro ⟨earlier, term, amounts, means⟩
      exact ⟨earlier, term, .parenthesized isTerm amounts, means⟩
    · have older := length_lt_of_definition? isDefined
      refine (run.knows.exists_amountsTo inner compilesInner).imp_right ?_
      rintro ⟨first, term, amounts, means⟩
      exact ⟨first, term, .named isTerm isDefined amounts, means⟩
  · exact .inl ((operates _).2 compiled (congrArg Prod.fst ran))
termination_by (events.length, sizeOf expression)

/-- What an expression amounts to is what it compiles to. -/
theorem Knows.compile_of_amountsTo {settings : Settings} {events earlier : List Event}
    {progress next : Progress} {expression : Expression} {term : Term} {compiled : Compiled}
    (knows : Knows settings events progress) (amounts : AmountsTo events expression earlier term)
    (compiles : progress.compile expression = .ok (compiled, next)) :
    ∃ before state, Knows settings earlier before ∧
      (compileTerm before.bindings true term).run.run ⟨before.graph, before.nextPattern⟩ =
        (.ok compiled, state) := by
  induction amounts generalizing progress next with
  | term isTerm =>
    obtain ⟨state, ran, -⟩ := Progress.compile_run compiles
    exact ⟨progress, state, knows, compile_of_term? isTerm ▸ ran⟩
  | parenthesized isTerm _ ih =>
    obtain ⟨state, ran, -⟩ := Progress.compile_run compiles
    rw [compile_of_term? isTerm, compileTerm_parenthesized] at ran
    exact ih knows (Progress.compile_of_run ran)
  | named isTerm isDefined _ ih =>
    obtain ⟨state, ran, -⟩ := Progress.compile_run compiles
    obtain ⟨unbound, found, isFound, draft, after, run, compilesInner⟩ :=
      knows.exists_of_definition? isDefined
    rw [compile_of_term? isTerm, compileTerm, run_compileName, unbound, isFound] at ran
    obtain rfl := Except.ok.inj (congrArg Prod.fst ran)
    exact ih run.knows compilesInner

/-- An expression is an aggregate as a whole exactly where it is one call of `COUNT`. -/
theorem Knows.isCount_iff {settings : Settings} {events : List Event} {progress next : Progress}
    (knows : Knows settings events progress) {expression : Expression} {compiled : Compiled}
    (compiles : progress.compile expression = .ok (compiled, next)) :
    compiled.aggregate.isSome = true ↔ IsCount events expression := by
  constructor
  · intro isAggregate
    rcases knows.exists_amountsTo expression compiles with
      composite | ⟨earlier, term, amounts, means⟩
    · rw [composite.aggregate] at isAggregate
      contradiction
    · refine ⟨earlier, term, amounts, ?_⟩
      cases means with
      | countAll => rfl
      | counted isCount => exact isCount
      | slot name slot path =>
        unfold compileSlot at isAggregate
        split at isAggregate <;> contradiction
      | word | literal | test => contradiction
  · rintro ⟨earlier, term, amounts, isCount⟩
    obtain ⟨before, state, knowsBefore, ran⟩ := knows.compile_of_amountsTo amounts compiles
    rcases knowsBefore.compileTerm_ok ran with means | ⟨inner, rfl, _⟩ | ⟨name, _, _, rfl, _⟩
    · cases means with
      | countAll | counted => rfl
      | slot | word | literal | test => contradiction
    · contradiction
    · contradiction

end CypherSql.Compilation
