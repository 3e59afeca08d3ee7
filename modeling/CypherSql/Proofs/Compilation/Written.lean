import CypherSql.Proofs.Compilation.Writing

/-! # Compiling an expression writes its phrase

Compilation depends on the state only through tests for patterns, and these depend on the slots of
the graph only.  So what an expression compiles to, and whether it compiles, is the same in every
state with the same slots, and it is what the expression is written as.

* `Represents` — what is compiled stands for what is written.
* `Writes` — a computation succeeds exactly when something is written, and stands for it.
* `Spells` — a lexicon gives the meaning that names and patterns have.
* `compile_writes` — an expression compiles to what it is written as.
* `spells_meaning` — the lexicon of a query gives the meaning of its names.
-/

namespace CypherSql.Compilation

open CypherSql.Cypher
open CypherSql.Graph (Slot)
open CypherSql.Sql (Binary Fragment GenerationError Lexeme Malformation Phrase Unary)

/-! ## What is compiled and what is written -/

/-- Whether a phrase is an `OR` of two others. -/
def isDisjunction : Phrase → Bool
  | .binary .or _ _ => true
  | _ => false

theorem isDisjunction_binary (operator : Binary) (left right : Phrase) :
    isDisjunction (.binary operator left right) = (operator == .or) := by
  cases operator <;> rfl

theorem isDisjunction_steps {first : Written} {rest : List (Binary × Written)}
    (nonempty : rest ≠ []) {expected : Bool}
    (all : ∀ entry ∈ rest, (entry.1 == Binary.or) = expected) :
    isDisjunction (Written.steps first rest).phrase = expected := by
  obtain ⟨step, isStep, left, outermost⟩ := Written.exists_stepsFrom_eq nonempty first.phrase
  rw [Written.steps, Written.ofParts, outermost, isDisjunction_binary, all step isStep]

theorem isDisjunction_chain {rest : List Written} (nonempty : rest ≠ []) (operator : Binary)
    (first : Written) :
    isDisjunction (Written.chain operator first rest).phrase = (operator == .or) :=
  isDisjunction_steps (by simpa using nonempty) (List.forall_mem_map.mpr fun _ _ => rfl)

structure Represents (compiled : Compiled) (written : Written) : Prop where
  operand : compiled.operand = written.phrase.fragment
  slot : compiled.slot = written.slot
  aggregates : compiled.aggregates = written.aggregates
  disjunctive : compiled.disjunctive = isDisjunction written.phrase

/-- The operands behind the first one, each with its operator. -/
def RepresentsStep (entry : Lexeme × Compiled) (entry' : Binary × Written) : Prop :=
  entry.1 = entry'.1.lexeme ∧ Represents entry.2 entry'.2

theorem operand_of_slot_none {compiled : Compiled} (none : compiled.slot = none) :
    compiled.operand = compiled.sql := by
  simp [Compiled.operand, none]

namespace Represents

theorem any_aggregates {parts : List Compiled} {parts' : List Written}
    (each : List.Forall₂ Represents parts parts') :
    parts.any Compiled.aggregates = parts'.any Written.aggregates := by
  induction each with
  | nil => rfl
  | cons first _ ih => rw [List.any_cons, List.any_cons, first.aggregates, ih]

/-- A value made from parts stands for the phrase it is written as. -/
theorem parts {sql : Fragment} {phrase : Phrase} {parts : List Compiled} {parts' : List Written}
    (each : List.Forall₂ Represents parts parts') (written : sql = phrase.fragment)
    (other : isDisjunction phrase = false) :
    Represents (.ofParts sql parts) (.ofParts phrase parts') where
  operand := written
  slot := rfl
  aggregates := any_aggregates each
  disjunctive := other.symm

theorem compileSlot (slot : Slot) (path : List String) :
    Represents (compileSlot slot path) (.ofSlot slot path) := by
  unfold Compilation.compileSlot Written.ofSlot
  split
  · obtain ⟨kind, index⟩ := slot
    cases kind <;> exact ⟨rfl, rfl, rfl, rfl⟩
  · exact ⟨rfl, rfl, rfl, rfl⟩

theorem scalar {phrase : Phrase} {sql : Fragment} (written : sql = phrase.fragment)
    (other : isDisjunction phrase = false) :
    Represents (.scalar sql) (.ofParts phrase []) :=
  ⟨written, rfl, rfl, other.symm⟩

/-- The phrase that operators and operands make from left to right is written in this order. -/
theorem fragment_stepsFrom (first : Phrase) {rest : List (Lexeme × Compiled)}
    {rest' : List (Binary × Written)} (each : List.Forall₂ RepresentsStep rest rest') :
    (Written.stepsFrom first rest').fragment =
      first.fragment ++ rest.flatMap fun (operator, part) => operator :: part.operand := by
  induction each generalizing first with
  | nil => simp
  | @cons entry entry' _ _ step _ ih =>
    obtain ⟨operator, stands⟩ := step
    simp [ih, Phrase.fragment, operator, stands.operand]

theorem forall₂_steps {rest : List (Lexeme × Compiled)} {rest' : List (Binary × Written)}
    (each : List.Forall₂ RepresentsStep rest rest') :
    List.Forall₂ Represents (rest.map (·.2)) (rest'.map (·.2)) := by
  rw [List.forall₂_map_left_iff, List.forall₂_map_right_iff]
  exact each.imp fun _ _ step => step.2

theorem steps {first : Compiled} {first' : Written} {rest : List (Lexeme × Compiled)}
    {rest' : List (Binary × Written)} (stands : Represents first first')
    (each : List.Forall₂ RepresentsStep rest rest') (nonempty : rest' ≠ [])
    (others : ∀ entry ∈ rest', (entry.1 == Binary.or) = false) :
    Represents (.steps first rest) (.steps first' rest') := by
  refine parts (.cons stands (forall₂_steps each)) ?_ (isDisjunction_steps nonempty others)
  rw [fragment_stepsFrom _ each, stands.operand]

/-- A chain is a row of steps with one operator. -/
theorem chain_eq_steps (operator : Lexeme) (first : Compiled) (rest : List Compiled) :
    Compiled.chain operator (first :: rest) =
      .steps first (rest.map fun part => (operator, part)) := by
  simp [Compiled.chain, Compiled.steps, Fragment.joined_cons, List.flatMap_map, Function.comp_def]

theorem forall₂_chain (operator : Binary) {rest : List Compiled} {rest' : List Written}
    (each : List.Forall₂ Represents rest rest') :
    List.Forall₂ RepresentsStep (rest.map fun part => (operator.lexeme, part))
      (rest'.map fun part => (operator, part)) := by
  rw [List.forall₂_map_left_iff, List.forall₂_map_right_iff]
  exact each.imp fun _ _ stands => ⟨rfl, stands⟩

theorem chain {operator : Binary} {first : Compiled} {first' : Written} {rest : List Compiled}
    {rest' : List Written} (stands : Represents first first')
    (each : List.Forall₂ Represents rest rest') (nonempty : rest' ≠ [])
    (other : (operator == .or) = false) :
    Represents (.chain operator.lexeme (first :: rest)) (.chain operator first' rest') := by
  rw [chain_eq_steps]
  exact steps stands (forall₂_chain operator each) (by simpa using nonempty)
    (List.forall_mem_map.mpr fun _ _ => other)

theorem disjunction {first : Compiled} {first' : Written} {rest : List Compiled}
    {rest' : List Written} (stands : Represents first first')
    (each : List.Forall₂ Represents rest rest') (nonempty : rest' ≠ []) :
    Represents (.disjunction (first :: rest)) (.chain .or first' rest') where
  operand := by
    have same := fragment_stepsFrom first'.phrase (forall₂_chain .or each)
    rw [← stands.operand] at same
    exact (congrArg Compiled.sql (chain_eq_steps .or first rest)).trans same.symm
  slot := rfl
  aggregates := by
    have same := any_aggregates (.cons stands each)
    simpa [Compiled.disjunction, Compiled.chain, Compiled.ofParts, Written.chain, Written.steps,
      Written.ofParts, Function.comp_def] using same
  disjunctive := (isDisjunction_chain nonempty .or first').symm

theorem behind {operator : Unary} {part : Compiled} {part' : Written}
    (stands : Represents part part') :
    Represents (.behind operator.lexeme part) (.behind operator part') :=
  parts (.cons stands .nil) (congrArg (operator.lexeme :: ·) stands.operand) rfl

theorem tested {subject : Compiled} {subject' : Written} (stands : Represents subject subject')
    (operator : StringOperator) (text : String) :
    Represents
      (.ofParts (subject.operand ++ [.like, .literal (.string (likePattern operator text))])
        [subject]) (.tested subject' operator text) :=
  parts (.cons stands .nil) (congrArg (· ++ _) stands.operand) rfl

theorem enclosed {inner : Compiled} {inner' : Written} (stands : Represents inner inner')
    (value : inner.slot = none) :
    Represents (.ofParts inner.sql.parenthesized [inner]) inner'.enclosed :=
  parts (.cons stands .nil)
    (by rw [← operand_of_slot_none value, stands.operand]; rfl) rfl

theorem fragment_raised (first : Phrase) {rest : List Compiled} {rest' : List Written}
    (each : List.Forall₂ Represents rest rest') :
    (Written.powersFrom first rest').fragment =
      powerOf first.fragment (rest.map Compiled.operand) := by
  induction each generalizing first with
  | nil => rfl
  | cons stands _ ih =>
    rw [Written.powersFrom_cons, ih, Phrase.fragment, ← stands.operand]
    rfl

theorem isDisjunction_raised {rest : List Written} (nonempty : rest ≠ []) (first : Phrase) :
    isDisjunction (Written.powersFrom first rest) = false := by
  obtain ⟨base, exponent, outermost⟩ := Written.exists_powersFrom_eq nonempty first
  rw [outermost]
  rfl

theorem raised {first : Compiled} {first' : Written} {rest : List Compiled}
    {rest' : List Written} (stands : Represents first first')
    (each : List.Forall₂ Represents rest rest') (nonempty : rest' ≠ []) :
    Represents (.ofParts (powerOf first.operand (rest.map Compiled.operand)) (first :: rest))
      (.raised first' rest') :=
  parts (.cons stands each) (by rw [fragment_raised _ each, stands.operand])
    (isDisjunction_raised nonempty _)

theorem counted {argument : Compiled} {argument' : Written}
    (stands : Represents argument argument') (distinct : Bool) :
    Represents (.ofAggregate (.count distinct) (counted argument distinct) [argument])
      (argument'.counted distinct) where
  operand := by
    have same : Compilation.counted argument distinct =
        (if argument'.slot.isSome && !distinct then Written.star
          else argument'.phrase).fragment := by
      rw [← stands.slot]
      cases slot : argument.slot with
      | none =>
        have written := stands.operand
        rw [operand_of_slot_none slot] at written
        simpa [Compilation.counted, slot] using written
      | some slot' =>
        cases distinct
        · simp [Compilation.counted, slot, Written.star, Phrase.fragment]
        · simpa [Compilation.counted, slot] using stands.operand
    simp only [Written.counted, Phrase.fragment, ← same]
    rfl
  slot := rfl
  aggregates := rfl
  disjunctive := rfl

end Represents

/-! ## What computations write -/

/-- A computation and what is written agree: both give a value, and the one stands for the other, or
neither does. -/
inductive Outcome {ε α β : Type} (Stands : α → β → Prop) : Except ε α → Option β → Prop where
  | value {result : α} {expected : β} (stands : Stands result expected) :
      Outcome Stands (.ok result) (some expected)
  | failure {error : ε} : Outcome Stands (.error error) none

/-- In every state with the slots of a graph, a computation gives a value exactly when something is
written, and then stands for it.  The slots stay the same. -/
def Writes {α β : Type} (graph : Graph) (Stands : α → β → Prop) (computation : Compile α)
    (expected : Option β) : Prop :=
  ∀ state, state.graph.unscoped = graph.unscoped →
    Outcome Stands (computation.run.run state).1 expected ∧
      (computation.run.run state).2.graph.unscoped = graph.unscoped

section

variable {graph : Graph} {α β γ δ : Type} {Stands : α → β → Prop} {StandsNext : γ → δ → Prop}

theorem writes_bind {first : Compile α} {first' : Option β} {next : α → Compile γ}
    {next' : β → Option δ} (writes : Writes graph Stands first first')
    (writesNext : ∀ value expected, Stands value expected →
      Writes graph StandsNext (next value) (next' expected)) :
    Writes graph StandsNext (first >>= next) (first' >>= next') := by
  intro state same
  obtain ⟨outcome, sameAfter⟩ := writes state same
  rw [run_bind]
  generalize first.run.run state = result at outcome sameAfter ⊢
  obtain ⟨_, after⟩ := result
  cases outcome with
  | value stands => exact writesNext _ _ stands after sameAfter
  | failure => exact ⟨.failure, sameAfter⟩

theorem writes_pure {value : α} {expected : β} (stands : Stands value expected) :
    Writes graph Stands (pure value) (some expected) :=
  fun _ same => ⟨.value stands, same⟩

theorem writes_get {next : CompilerState → Compile α} {expected : Option β}
    (writes : ∀ state, state.graph.unscoped = graph.unscoped →
      Writes graph Stands (next state) expected) : Writes graph Stands (get >>= next) expected :=
  fun state same => writes state same state same

theorem writes_throw (error : GenerationError) : Writes graph Stands (throw error) none :=
  fun _ same => ⟨.failure, same⟩

theorem writes_refuse (shape : Malformation) : Writes graph Stands (refuse shape) none :=
  writes_throw _

end

/-! ## Whole expressions -/

/-- Whatever names and patterns mean in the states with the slots of a graph, the lexicon gives what
it is written as. -/
structure Spells (lexicon : Lexicon) (graph : Graph) (bindings : Bindings) : Prop where
  name : ∀ whole name path,
    Writes graph Represents (compileName bindings name path) (lexicon.name? whole name path)
  test : ∀ pattern, Writes graph (fun compiled sub =>
    Represents compiled (.ofParts (.operand (.existing sub) rfl) []))
      (existence bindings.settings pattern) (lexicon.test? pattern)

section

variable {lexicon : Lexicon} {graph : Graph} {bindings : Bindings}

theorem writes_requireNoPath {atom : Atom} {path : List String} {computation : Compile Compiled}
    {expected : Option Written} (writes : Writes graph Represents computation expected) :
    Writes graph Represents (do requireNoPath atom path; computation)
      (if path.isEmpty then expected else none) := by
  unfold requireNoPath
  split
  · exact writes
  · exact writes_refuse _

theorem applyTests_writes {subject : Compiled} {subject' : Written}
    (stands : Represents subject subject') : ∀ tests,
    Writes graph Represents (applyTests subject tests) (Lexicon.writeTests subject' tests)
  | [] => writes_pure stands
  | [(operator, term)] => by
    rw [applyTests, Lexicon.writeTests]
    cases stringOf? term with
    | some text => exact writes_pure (stands.tested operator text)
    | none => exact writes_throw _
  | _ :: _ :: _ => writes_refuse _

theorem count_writes {argument : Compiled} {argument' : Written}
    (stands : Represents argument argument') (distinct : Bool) :
    Writes graph Represents (count argument distinct)
      (if argument'.aggregates then none else some (argument'.counted distinct)) := by
  unfold count
  rw [stands.aggregates]
  split
  · exact writes_refuse _
  · exact writes_pure (stands.counted distinct)

/-- A pair of parentheses is kept unless it stands around a whole or around a slot. -/
theorem enclosed_writes {value : Compiled} {value' : Written} (stands : Represents value value')
    (whole : Bool) :
    Writes graph Represents
      (pure (if whole || value.slot.isSome then value
        else .ofParts value.sql.parenthesized [value]))
      (some (if whole || value'.slot.isSome then value' else value'.enclosed)) := by
  apply writes_pure
  rw [← stands.slot]
  split
  · exact stands
  · next kept =>
    have noSlot : value.slot = none := by
      cases slot : value.slot <;> simp_all
    exact stands.enclosed noSlot

theorem behind_writes {value : Compiled} {value' : Written} (stands : Represents value value')
    (operator : Unary) (condition : Bool) :
    Writes graph Represents (pure (if condition then .behind operator.lexeme value else value))
      (some (if condition then .behind operator value' else value')) := by
  apply writes_pure
  split
  · exact stands.behind
  · exact stands

/-- Operands of one kind, as many as there are. -/
structure RepresentsRow (length : Nat) (parts : List Compiled) (parts' : List Written) : Prop where
  each : List.Forall₂ Represents parts parts'
  length : parts'.length = length

/-- Steps by operators of arithmetic. -/
structure RepresentsSteps (rest : List (Lexeme × Compiled)) (rest' : List (Binary × Written)) :
    Prop where
  each : List.Forall₂ RepresentsStep rest rest'
  others : ∀ entry ∈ rest', (entry.1 == Binary.or) = false

theorem row_writes {length : Nat} {first : Compile Compiled} {first' : Option Written}
    {rest : Compile (List Compiled)} {rest' : Option (List Written)}
    (writes : Writes graph Represents first first')
    (writesRest : Writes graph (RepresentsRow length) rest rest') :
    Writes graph (RepresentsRow (length + 1)) (do return (← first) :: (← rest))
      (do return (← first') :: (← rest')) :=
  writes_bind writes fun _ _ stands =>
    writes_bind writesRest fun _ _ row =>
      writes_pure ⟨.cons stands row.each, congrArg (· + 1) row.length⟩

theorem step_writes (operator : Binary) (other : (operator == .or) = false)
    {first : Compile Compiled} {first' : Option Written}
    {rest : Compile (List (Lexeme × Compiled))} {rest' : Option (List (Binary × Written))}
    (writes : Writes graph Represents first first')
    (writesRest : Writes graph RepresentsSteps rest rest') :
    Writes graph RepresentsSteps (do return (operator.lexeme, ← first) :: (← rest))
      (do return (operator, ← first') :: (← rest')) :=
  writes_bind writes fun _ _ stands =>
    writes_bind writesRest fun _ _ steps =>
      writes_pure ⟨.cons ⟨rfl, stands⟩ steps.each, List.forall_mem_cons.mpr ⟨other, steps.others⟩⟩

theorem steps_writes {first : Compiled} {first' : Written} (stands : Represents first first')
    {rest : List (Lexeme × Compiled)} {rest' : List (Binary × Written)}
    (steps : RepresentsSteps rest rest') :
    Writes graph Represents (pure (if rest.isEmpty then first else .steps first rest))
      (some (if rest'.isEmpty then first' else .steps first' rest')) := by
  apply writes_pure
  obtain ⟨each, others⟩ := steps
  cases each with
  | nil => exact stands
  | cons step each => exact stands.steps (.cons step each) (List.cons_ne_nil _ _) others

mutual

theorem compile_writes (spells : Spells lexicon graph bindings) : ∀ expression,
    Writes graph Represents (compile bindings expression) (lexicon.write expression)
  | ⟨[]⟩ => writes_refuse _
  | ⟨[only]⟩ => compileExclusion_writes spells true only
  | ⟨first :: second :: rest⟩ => by
    -- Compiling goes through all operands at once, writing takes the first one apart.
    change Writes graph Represents
      (compileExclusions bindings (first :: second :: rest) >>= fun parts =>
        pure (.disjunction parts)) _
    rw [compileExclusions]
    simp only [bind_assoc, pure_bind]
    exact writes_bind (compileExclusion_writes spells false first) fun _ _ stands =>
      writes_bind (compileExclusions_writes spells (second :: rest)) fun _ _ row =>
        writes_pure (stands.disjunction row.each (List.ne_nil_of_length_eq_add_one row.length))

theorem compileExclusions_writes (spells : Spells lexicon graph bindings) : ∀ operands,
    Writes graph (RepresentsRow operands.length) (compileExclusions bindings operands)
      (lexicon.writeExclusions operands)
  | [] => writes_pure ⟨.nil, rfl⟩
  | operand :: rest =>
    row_writes (compileExclusion_writes spells false operand) (compileExclusions_writes spells rest)

theorem compileExclusion_writes (spells : Spells lexicon graph bindings) (whole : Bool) :
    ∀ operand,
    Writes graph Represents (compileExclusion bindings whole operand)
      (lexicon.writeExclusion whole operand)
  | ⟨[]⟩ => writes_refuse _
  | ⟨[only]⟩ => compileConjunction_writes spells whole only
  | ⟨_ :: _ :: _⟩ => writes_refuse _

theorem compileConjunction_writes (spells : Spells lexicon graph bindings) (whole : Bool) :
    ∀ operand,
    Writes graph Represents (compileConjunction bindings whole operand)
      (lexicon.writeConjunction whole operand)
  | ⟨[]⟩ => writes_refuse _
  | ⟨[only]⟩ => compileComparison_writes spells whole only
  | ⟨first :: second :: rest⟩ => by
    change Writes graph Represents
      (compileComparisons bindings (first :: second :: rest) >>= fun parts =>
        pure (.chain Binary.and.lexeme parts)) _
    rw [compileComparisons]
    simp only [bind_assoc, pure_bind]
    exact writes_bind (compileComparison_writes spells false first) fun _ _ stands =>
      writes_bind (compileComparisons_writes spells (second :: rest)) fun _ _ row =>
        writes_pure (stands.chain row.each (List.ne_nil_of_length_eq_add_one row.length) rfl)

theorem compileComparisons_writes (spells : Spells lexicon graph bindings) : ∀ operands,
    Writes graph (RepresentsRow operands.length) (compileComparisons bindings operands)
      (lexicon.writeComparisons operands)
  | [] => writes_pure ⟨.nil, rfl⟩
  | operand :: rest =>
    row_writes (compileComparison_writes spells false operand)
      (compileComparisons_writes spells rest)

theorem compileComparison_writes (spells : Spells lexicon graph bindings) (whole : Bool) :
    ∀ operand,
    Writes graph Represents (compileComparison bindings whole operand)
      (lexicon.writeComparison whole operand)
  | ⟨negated, left, rest⟩ =>
    writes_bind (compileAddition_writes spells _ left) fun _ _ stands =>
      writes_bind (compileCompared_writes spells stands rest) fun _ _ stands =>
        behind_writes stands .not negated

theorem compileCompared_writes (spells : Spells lexicon graph bindings) {first : Compiled}
    {first' : Written} (stands : Represents first first') : ∀ rest,
    Writes graph Represents (compileCompared bindings first rest)
      (lexicon.writeCompared first' rest)
  | [] => writes_pure stands
  | [(operator, right)] =>
    writes_bind (compileAddition_writes spells false right) fun _ _ second =>
      writes_pure (stands.steps (.cons ⟨rfl, second⟩ .nil) (List.cons_ne_nil _ _) (by simp))
  | _ :: _ :: _ => writes_refuse _

theorem compileAddition_writes (spells : Spells lexicon graph bindings) (whole : Bool) : ∀ operand,
    Writes graph Represents (compileAddition bindings whole operand)
      (lexicon.writeAddition whole operand)
  | ⟨first, rest⟩ =>
    writes_bind (compileMultiplication_writes spells _ first) fun _ _ stands =>
      writes_bind (compileAdded_writes spells rest) fun _ _ steps => steps_writes stands steps

theorem compileAdded_writes (spells : Spells lexicon graph bindings) : ∀ rest,
    Writes graph RepresentsSteps (compileAdded bindings rest) (lexicon.writeAdded rest)
  | [] => writes_pure ⟨.nil, List.forall_mem_nil _⟩
  | (operator, operand) :: rest =>
    step_writes (.add operator) rfl (compileMultiplication_writes spells false operand)
      (compileAdded_writes spells rest)

theorem compileMultiplication_writes (spells : Spells lexicon graph bindings) (whole : Bool) :
    ∀ operand,
    Writes graph Represents (compileMultiplication bindings whole operand)
      (lexicon.writeMultiplication whole operand)
  | ⟨first, rest⟩ =>
    writes_bind (compilePower_writes spells _ first) fun _ _ stands =>
      writes_bind (compileMultiplied_writes spells rest) fun _ _ steps => steps_writes stands steps

theorem compileMultiplied_writes (spells : Spells lexicon graph bindings) : ∀ rest,
    Writes graph RepresentsSteps (compileMultiplied bindings rest) (lexicon.writeMultiplied rest)
  | [] => writes_pure ⟨.nil, List.forall_mem_nil _⟩
  | (operator, operand) :: rest =>
    step_writes (.multiply operator) rfl (compilePower_writes spells false operand)
      (compileMultiplied_writes spells rest)

theorem compilePower_writes (spells : Spells lexicon graph bindings) (whole : Bool) : ∀ operand,
    Writes graph Represents (compilePower bindings whole operand) (lexicon.writePower whole operand)
  | ⟨[]⟩ => writes_refuse _
  | ⟨[only]⟩ => compileSigned_writes spells whole only
  | ⟨first :: second :: rest⟩ =>
    writes_bind (compileSigned_writes spells false first) fun _ _ stands =>
      writes_bind (compileSigneds_writes spells (second :: rest)) fun _ _ row =>
        writes_pure (stands.raised row.each (List.ne_nil_of_length_eq_add_one row.length))

theorem compileSigneds_writes (spells : Spells lexicon graph bindings) : ∀ operands,
    Writes graph (RepresentsRow operands.length) (compileSigneds bindings operands)
      (lexicon.writeSigneds operands)
  | [] => writes_pure ⟨.nil, rfl⟩
  | operand :: rest =>
    row_writes (compileSigned_writes spells false operand) (compileSigneds_writes spells rest)

theorem compileSigned_writes (spells : Spells lexicon graph bindings) (whole : Bool) : ∀ operand,
    Writes graph Represents (compileSigned bindings whole operand)
      (lexicon.writeSigned whole operand)
  | ⟨negative, term, tests⟩ =>
    writes_bind (compileTerm_writes spells _ term) fun _ _ stands =>
      writes_bind (applyTests_writes stands tests) fun _ _ stands =>
        behind_writes stands .negate negative

theorem compileTerm_writes (spells : Spells lexicon graph bindings) (whole : Bool) : ∀ term,
    Writes graph Represents (compileTerm bindings whole term) (lexicon.writeTerm whole term)
  | ⟨.name name, path⟩ => spells.name whole name path
  | ⟨.literal value, _⟩ => writes_requireNoPath (compileAtom_writes spells whole (.literal value))
  | ⟨.call name distinct arguments, _⟩ =>
    writes_requireNoPath (compileAtom_writes spells whole (.call name distinct arguments))
  | ⟨.countAll, _⟩ => writes_requireNoPath (compileAtom_writes spells whole .countAll)
  | ⟨.parenthesized inner, _⟩ =>
    writes_requireNoPath (compileAtom_writes spells whole (.parenthesized inner))
  | ⟨.pattern pattern, _⟩ =>
    writes_requireNoPath (compileAtom_writes spells whole (.pattern pattern))

theorem compileAtom_writes (spells : Spells lexicon graph bindings) (whole : Bool) : ∀ atom,
    Writes graph Represents (compileAtom bindings whole atom) (lexicon.writeAtom whole atom)
  | .name name => spells.name whole name []
  | .literal _ => writes_pure (.scalar rfl rfl)
  | .call name distinct arguments => by
    rw [compileAtom, Lexicon.writeAtom]
    split
    · exact compileCount_writes spells distinct arguments
    · exact writes_throw _
  | .countAll => writes_pure ⟨rfl, rfl, rfl, rfl⟩
  | .parenthesized inner =>
    writes_bind (compile_writes spells inner) fun _ _ stands => enclosed_writes stands whole
  | .pattern pattern => by
    rw [compileAtom, Lexicon.writeAtom]
    have runs := writes_bind (spells.test pattern) (fun _ _ stands => writes_pure stands)
    rwa [bind_pure] at runs

theorem compileCount_writes (spells : Spells lexicon graph bindings) (distinct : Bool) :
    ∀ arguments,
    Writes graph Represents (compileCount bindings distinct arguments)
      (lexicon.writeCount distinct arguments)
  | [argument] =>
    writes_bind (compile_writes spells argument) fun _ _ stands => count_writes stands distinct
  | [] => writes_refuse _
  | _ :: _ :: _ => writes_refuse _

end

end

/-! ## The lexicon of a query -/

section

variable {settings : Settings} {graph : Graph} {given : String → Option Written}
  {bindings : Bindings}

theorem compileName_writes
    (agree : ∀ name, Option.Rel Represents (bindings.find? name) (given name)) (whole : Bool)
    (name : String) (path : List String) :
    Writes graph Represents (compileName bindings name path)
      ((Lexicon.meaning settings graph given).name? whole name path) := by
  apply writes_get
  intro state same
  dsimp only [Lexicon.meaning]
  rw [Graph.slot?_eq_of_unscoped same]
  have meansSame := agree name
  cases graph.slot? name with
  | some slot => exact writes_pure (.compileSlot slot path)
  | none =>
    generalize bindings.find? name = compiled, given name = written at meansSame
    cases meansSame with
    | none =>
      dsimp only
      split
      · exact writes_pure (.scalar rfl rfl)
      · exact writes_throw _
    | @some compiled written stands =>
      dsimp only
      split
      · exact writes_pure stands
      · rw [stands.slot]
        cases written.slot with
        | some slot => exact writes_pure (.compileSlot slot path)
        | none => exact writes_throw _

theorem spells_meaning (sameSettings : bindings.settings = settings)
    (agree : ∀ name, Option.Rel Represents (bindings.find? name) (given name)) :
    Spells (.meaning settings graph given) graph bindings where
  name := compileName_writes agree
  test := by
    intro pattern state same
    have result := existence_result bindings.settings pattern same
    have kept := (existence_sameSlots bindings.settings pattern state).1
    refine ⟨?_, Eq.trans kept same⟩
    rw [sameSettings] at result ⊢
    dsimp only [Lexicon.meaning]
    generalize ((existence settings pattern).run.run state).1 = outcome at result ⊢
    generalize embeds graph pattern = embedded at result ⊢
    cases embedded with
    | some embedding =>
      cases outcome with
      | error => contradiction
      | ok compiled =>
        obtain rfl := Option.some.inj result
        exact .value ⟨rfl, rfl, rfl, rfl⟩
    | none =>
      cases outcome with
      | error => exact .failure
      | ok compiled => contradiction

end

end CypherSql.Compilation
