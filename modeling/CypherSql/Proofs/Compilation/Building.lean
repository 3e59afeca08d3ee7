import CypherSql.Proofs.Compilation.Writing
import CypherSql.Proofs.Cypher.Ingredients

/-! # Expressions from their ingredients

Whatever an expression is written as, it is put together from what its ingredients are written as,
two parts at a time.  So a fact about the phrase of an expression is proved by going through the
few ways in which phrases are put together, and not through the levels of precedence.

* `Gives` — what holds of a value if there is one.
* `Lexicon.Builds` — the ways in which phrases are put together, with the ingredients of each.
* `Lexicon.write_builds` — expressions are written in these ways.
* `Lexicon.Builds.lexemes` — a property of the lexemes of all ingredients is one of every lexeme.
* `Lexicon.Builds.test_mem` — every pattern is looked for.
* `Lexicon.Builds.counts_iff` — a phrase counts where an ingredient does.
-/

namespace CypherSql.Compilation

open CypherSql.Cypher
open CypherSql.Sql (Binary Fragment Lexeme Phrase Subselect Unary)

/-! ## Values that may be missing -/

def Gives {α : Type} (P : α → Prop) (result : Option α) : Prop :=
  ∀ value, result = some value → P value

section

variable {α β : Type} {P : α → Prop} {Q : β → Prop}

theorem gives_none : Gives P none :=
  nofun

theorem gives_some {value : α} (holds : P value) : Gives P (some value) := by
  rintro _ ⟨⟩
  exact holds

theorem gives_bind {result : Option β} {next : β → Option α} (gives : Gives Q result)
    (givesNext : ∀ value, Q value → Gives P (next value)) : Gives P (result >>= next) := by
  cases result with
  | none => exact gives_none
  | some value => exact givesNext value (gives value rfl)

theorem gives_ite {condition : Bool} {result : Option α} (gives : Gives P result) :
    Gives P (if condition then result else none) := by
  cases condition
  · exact gives_none
  · exact gives

end

/-! ## Rows of operands, two at a time -/

namespace Written

/-- Two values with an operator between them. -/
def joined (operator : Binary) (left right : Written) : Written :=
  ofParts (.binary operator left.phrase right.phrase) [left, right]

def power (base exponent : Written) : Written :=
  ofParts (.power base.phrase exponent.phrase) [base, exponent]

theorem steps_eq_foldl {rest : List (Binary × Written)} (nonempty : rest ≠ []) (first : Written) :
    steps first rest = rest.foldl (fun left step => joined step.1 left step.2) first := by
  induction rest generalizing first with
  | nil => exact absurd rfl nonempty
  | cons step rest ih =>
    cases rest with
    | nil => rfl
    | cons next rest =>
      rw [List.foldl_cons, ← ih (List.cons_ne_nil _ _)]
      simp [steps, joined, ofParts, Bool.or_assoc]

theorem raised_eq_foldl {rest : List Written} (nonempty : rest ≠ []) (first : Written) :
    raised first rest = rest.foldl power first := by
  induction rest generalizing first with
  | nil => exact absurd rfl nonempty
  | cons exponent rest ih =>
    cases rest with
    | nil => rfl
    | cons next rest =>
      rw [List.foldl_cons, ← ih (List.cons_ne_nil _ _)]
      simp [raised, power, ofParts, Bool.or_assoc]

end Written

/-! ## Ways of building -/

namespace Lexicon

variable (lexicon : Lexicon)

/-- A phrase and the ingredients that it is built from. -/
inductive Builds : List Ingredient → Written → Prop where
  | name {whole : Bool} {name : String} {path : List String} {written : Written}
      (means : lexicon.name? whole name path = some written) :
      Builds [.name name path] written
  | literal (value : Literal) : Builds [.literal value] (.ofLiteral value)
  | countAll : Builds [.countAll] ⟨.count false Written.star, none, true⟩
  | test {pattern : Pattern} {sub : Subselect} (means : lexicon.test? pattern = some sub) :
      Builds [.pattern pattern] (.ofParts (.operand (.existing sub) rfl) [])
  | counted {function : String} {parts : List Ingredient} {argument : Written} (distinct : Bool)
      (isCount : Text.sameIgnoringCase function "COUNT" = true)
      (unaggregated : argument.aggregates = false) (builds : Builds parts argument) :
      Builds (.call function :: parts) (argument.counted distinct)
  | tested {parts : List Ingredient} {subject : Written} (operator : StringOperator)
      (text : String) (builds : Builds parts subject) :
      Builds (parts ++ [.literal (.string text)]) (subject.tested operator text)
  | behind {parts : List Ingredient} {part : Written} (operator : Unary)
      (builds : Builds parts part) : Builds parts (.behind operator part)
  | enclosed {parts : List Ingredient} {part : Written} (builds : Builds parts part) :
      Builds parts part.enclosed
  | joined {first second : List Ingredient} {left right : Written} (operator : Binary)
      (buildsLeft : Builds first left) (buildsRight : Builds second right) :
      Builds (first ++ second) (.joined operator left right)
  | power {first second : List Ingredient} {base exponent : Written}
      (buildsBase : Builds first base) (buildsExponent : Builds second exponent) :
      Builds (first ++ second) (.power base exponent)

/-- Several phrases and the ingredients of all of them. -/
inductive BuildsRow : List Ingredient → List Written → Prop where
  | nil : BuildsRow [] []
  | cons {first second : List Ingredient} {part : Written} {rest : List Written}
      (builds : lexicon.Builds first part) (buildsRest : BuildsRow second rest) :
      BuildsRow (first ++ second) (part :: rest)

variable {lexicon} {parts more : List Ingredient} {part : Written}

namespace Builds

theorem alone (builds : lexicon.Builds parts part) : lexicon.Builds (parts ++ []) part :=
  (List.append_nil parts).symm ▸ builds

theorem foldl_joined {rest : List (Binary × Written)}
    (row : lexicon.BuildsRow more (rest.map (·.2))) (builds : lexicon.Builds parts part) :
    lexicon.Builds (parts ++ more)
      (rest.foldl (fun left step => .joined step.1 left step.2) part) := by
  induction rest generalizing parts more part with
  | nil =>
    cases row
    exact builds.alone
  | cons step rest ih =>
    cases row with
    | cons buildsFirst buildsRest =>
      rw [← List.append_assoc]
      exact ih buildsRest (.joined step.1 builds buildsFirst)

theorem foldl_power {rest : List Written} (row : lexicon.BuildsRow more rest)
    (builds : lexicon.Builds parts part) :
    lexicon.Builds (parts ++ more) (rest.foldl .power part) := by
  induction rest generalizing parts more part with
  | nil =>
    cases row
    exact builds.alone
  | cons exponent rest ih =>
    cases row with
    | cons buildsFirst buildsRest =>
      rw [← List.append_assoc]
      exact ih buildsRest (builds.power buildsFirst)

theorem stepsIfAny {rest : List (Binary × Written)} (builds : lexicon.Builds parts part)
    (row : lexicon.BuildsRow more (rest.map (·.2))) :
    lexicon.Builds (parts ++ more) (if rest.isEmpty then part else .steps part rest) := by
  have folded := builds.foldl_joined row
  cases rest with
  | nil => exact folded
  | cons step rest => exact Written.steps_eq_foldl (List.cons_ne_nil _ _) part ▸ folded

theorem chain {first : Written} {rest : List Written} (operator : Binary)
    (builds : lexicon.Builds parts first) (row : lexicon.BuildsRow more rest)
    (nonempty : rest ≠ []) : lexicon.Builds (parts ++ more) (.chain operator first rest) := by
  have pairs : (rest.map fun part => (operator, part)).map (·.2) = rest := by
    simp [Function.comp_def]
  have folded := builds.foldl_joined (pairs.symm ▸ row)
  rwa [← Written.steps_eq_foldl (by simpa using nonempty)] at folded

theorem raised {first : Written} {rest : List Written} (builds : lexicon.Builds parts first)
    (row : lexicon.BuildsRow more rest) (nonempty : rest ≠ []) :
    lexicon.Builds (parts ++ more) (.raised first rest) :=
  Written.raised_eq_foldl nonempty first ▸ builds.foldl_power row

theorem behindIf {negated : Bool} (operator : Unary) (builds : lexicon.Builds parts part) :
    lexicon.Builds parts (if negated then .behind operator part else part) := by
  cases negated
  · exact builds
  · exact builds.behind operator

theorem enclosedIf (keeps : Bool) (builds : lexicon.Builds parts part) :
    lexicon.Builds parts (if keeps then part else part.enclosed) := by
  cases keeps
  · exact builds.enclosed
  · exact builds

end Builds

/-! ## Whole expressions -/

/-- As many operands as there are. -/
def BuildsOperands (lexicon : Lexicon) (length : Nat) (parts : List Ingredient)
    (row : List Written) : Prop :=
  lexicon.BuildsRow parts row ∧ row.length = length

theorem gives_row {length : Nat} {first : Option Written} {rest : Option (List Written)}
    (gives : Gives (lexicon.Builds parts) first)
    (givesRest : Gives (lexicon.BuildsOperands length more) rest) :
    Gives (lexicon.BuildsOperands (length + 1) (parts ++ more))
      (do return (← first) :: (← rest)) :=
  gives_bind gives fun _ builds =>
    gives_bind givesRest fun _ row => gives_some ⟨.cons builds row.1, congrArg (· + 1) row.2⟩

theorem gives_step (operator : Binary) {first : Option Written}
    {rest : Option (List (Binary × Written))} (gives : Gives (lexicon.Builds parts) first)
    (givesRest : Gives (fun steps => lexicon.BuildsRow more (steps.map (·.2))) rest) :
    Gives (fun steps => lexicon.BuildsRow (parts ++ more) (steps.map (·.2)))
      (do return (operator, ← first) :: (← rest)) :=
  gives_bind gives fun _ builds =>
    gives_bind givesRest fun _ row => gives_some (.cons builds row)

theorem stringOf?_eq_some {term : Term} {text : String} (isText : stringOf? term = some text) :
    term.ingredients = [.literal (.string text)] := by
  unfold stringOf? at isText
  split at isText
  · obtain rfl := Option.some.inj isText
    rfl
  · contradiction

theorem writeTests_builds (builds : lexicon.Builds parts part) : ∀ tests,
    Gives (lexicon.Builds (parts ++ testedIngredients tests)) (writeTests part tests)
  | [] => gives_some builds.alone
  | [(operator, term)] => by
    rintro _ isWritten
    obtain ⟨text, isText, rfl⟩ := Option.map_eq_some_iff.mp isWritten
    rw [testedIngredients, testedIngredients, stringOf?_eq_some isText, List.append_nil]
    exact builds.tested operator text
  | _ :: _ :: _ => gives_none

mutual

theorem write_builds : ∀ expression,
    Gives (lexicon.Builds expression.ingredients) (lexicon.write expression)
  | ⟨[]⟩ => gives_none
  | ⟨[only]⟩ => fun written isWritten => (writeExclusion_builds true only written isWritten).alone
  | ⟨first :: second :: rest⟩ =>
    gives_bind (writeExclusion_builds false first) fun _ builds =>
      gives_bind (writeExclusions_builds (second :: rest)) fun _ row =>
        gives_some (builds.chain .or row.1 (List.ne_nil_of_length_eq_add_one row.2))

theorem writeExclusions_builds : ∀ operands,
    Gives (lexicon.BuildsOperands operands.length (exclusionsIngredients operands))
      (lexicon.writeExclusions operands)
  | [] => gives_some ⟨.nil, rfl⟩
  | operand :: rest => gives_row (writeExclusion_builds false operand) (writeExclusions_builds rest)

theorem writeExclusion_builds (whole : Bool) : ∀ operand,
    Gives (lexicon.Builds operand.ingredients) (lexicon.writeExclusion whole operand)
  | ⟨[]⟩ => gives_none
  | ⟨[only]⟩ => fun written isWritten =>
    (writeConjunction_builds whole only written isWritten).alone
  | ⟨_ :: _ :: _⟩ => gives_none

theorem writeConjunction_builds (whole : Bool) : ∀ operand,
    Gives (lexicon.Builds operand.ingredients) (lexicon.writeConjunction whole operand)
  | ⟨[]⟩ => gives_none
  | ⟨[only]⟩ => fun written isWritten =>
    (writeComparison_builds whole only written isWritten).alone
  | ⟨first :: second :: rest⟩ =>
    gives_bind (writeComparison_builds false first) fun _ builds =>
      gives_bind (writeComparisons_builds (second :: rest)) fun _ row =>
        gives_some (builds.chain .and row.1 (List.ne_nil_of_length_eq_add_one row.2))

theorem writeComparisons_builds : ∀ operands,
    Gives (lexicon.BuildsOperands operands.length (comparisonsIngredients operands))
      (lexicon.writeComparisons operands)
  | [] => gives_some ⟨.nil, rfl⟩
  | operand :: rest =>
    gives_row (writeComparison_builds false operand) (writeComparisons_builds rest)

theorem writeComparison_builds (whole : Bool) : ∀ operand,
    Gives (lexicon.Builds operand.ingredients) (lexicon.writeComparison whole operand)
  | ⟨_, left, rest⟩ =>
    gives_bind (writeAddition_builds _ left) fun _ builds =>
      gives_bind (writeCompared_builds builds rest) fun _ compared =>
        gives_some (compared.behindIf .not)

theorem writeCompared_builds {first : Written} {parts : List Ingredient}
    (builds : lexicon.Builds parts first) : ∀ rest,
    Gives (lexicon.Builds (parts ++ comparedIngredients rest)) (lexicon.writeCompared first rest)
  | [] => gives_some builds.alone
  | [(operator, right)] =>
    gives_bind (writeAddition_builds false right) fun _ second =>
      gives_some (builds.joined (.compare operator) second.alone)
  | _ :: _ :: _ => gives_none

theorem writeAddition_builds (whole : Bool) : ∀ operand,
    Gives (lexicon.Builds operand.ingredients) (lexicon.writeAddition whole operand)
  | ⟨first, rest⟩ =>
    gives_bind (writeMultiplication_builds _ first) fun _ builds =>
      gives_bind (writeAdded_builds rest) fun _ row => gives_some (builds.stepsIfAny row)

theorem writeAdded_builds : ∀ rest,
    Gives (fun steps => lexicon.BuildsRow (addedIngredients rest) (steps.map (·.2)))
      (lexicon.writeAdded rest)
  | [] => gives_some .nil
  | (operator, operand) :: rest =>
    gives_step (.add operator) (writeMultiplication_builds false operand) (writeAdded_builds rest)

theorem writeMultiplication_builds (whole : Bool) : ∀ operand,
    Gives (lexicon.Builds operand.ingredients) (lexicon.writeMultiplication whole operand)
  | ⟨first, rest⟩ =>
    gives_bind (writePower_builds _ first) fun _ builds =>
      gives_bind (writeMultiplied_builds rest) fun _ row => gives_some (builds.stepsIfAny row)

theorem writeMultiplied_builds : ∀ rest,
    Gives (fun steps => lexicon.BuildsRow (multipliedIngredients rest) (steps.map (·.2)))
      (lexicon.writeMultiplied rest)
  | [] => gives_some .nil
  | (operator, operand) :: rest =>
    gives_step (.multiply operator) (writePower_builds false operand) (writeMultiplied_builds rest)

theorem writePower_builds (whole : Bool) : ∀ operand,
    Gives (lexicon.Builds operand.ingredients) (lexicon.writePower whole operand)
  | ⟨[]⟩ => gives_none
  | ⟨[only]⟩ => fun written isWritten => (writeSigned_builds whole only written isWritten).alone
  | ⟨first :: second :: rest⟩ =>
    gives_bind (writeSigned_builds false first) fun _ builds =>
      gives_bind (writeSigneds_builds (second :: rest)) fun _ row =>
        gives_some (builds.raised row.1 (List.ne_nil_of_length_eq_add_one row.2))

theorem writeSigneds_builds : ∀ operands,
    Gives (lexicon.BuildsOperands operands.length (signedsIngredients operands))
      (lexicon.writeSigneds operands)
  | [] => gives_some ⟨.nil, rfl⟩
  | operand :: rest => gives_row (writeSigned_builds false operand) (writeSigneds_builds rest)

theorem writeSigned_builds (whole : Bool) : ∀ operand,
    Gives (lexicon.Builds operand.ingredients) (lexicon.writeSigned whole operand)
  | ⟨_, term, tests⟩ =>
    gives_bind (writeTerm_builds _ term) fun _ builds =>
      gives_bind (writeTests_builds builds tests) fun _ tested =>
        gives_some (tested.behindIf .negate)

theorem writeTerm_builds (whole : Bool) : ∀ term,
    Gives (lexicon.Builds term.ingredients) (lexicon.writeTerm whole term)
  | ⟨.name _, _⟩ => fun _ => .name
  | ⟨.literal value, _⟩ => gives_ite (writeAtom_builds whole (.literal value))
  | ⟨.call name distinct arguments, _⟩ =>
    gives_ite (writeAtom_builds whole (.call name distinct arguments))
  | ⟨.countAll, _⟩ => gives_ite (writeAtom_builds whole .countAll)
  | ⟨.parenthesized inner, _⟩ => gives_ite (writeAtom_builds whole (.parenthesized inner))
  | ⟨.pattern pattern, _⟩ => gives_ite (writeAtom_builds whole (.pattern pattern))

theorem writeAtom_builds (whole : Bool) : ∀ atom,
    Gives (lexicon.Builds atom.ingredients) (lexicon.writeAtom whole atom)
  | .name _ => fun _ => .name
  | .literal value => gives_some (.literal value)
  | .call function distinct arguments => by
    rw [writeAtom]
    split
    · next isCount => exact writeCount_builds isCount distinct arguments
    · exact gives_none
  | .countAll => gives_some .countAll
  | .parenthesized inner =>
    gives_bind (write_builds inner) fun _ builds => gives_some (builds.enclosedIf _)
  | .pattern pattern => by
    rintro _ isWritten
    obtain ⟨sub, means, isTest⟩ := Option.bind_eq_some_iff.mp isWritten
    obtain rfl := Option.some.inj isTest
    exact .test means

theorem writeCount_builds {function : String}
    (isCount : Text.sameIgnoringCase function "COUNT" = true) (distinct : Bool) : ∀ arguments,
    Gives (lexicon.Builds (.call function :: argumentsIngredients arguments))
      (lexicon.writeCount distinct arguments)
  | [argument] =>
    gives_bind (write_builds argument) fun value builds => by
      split
      · exact gives_none
      · next unaggregated =>
        have plain := Bool.eq_false_iff.mpr unaggregated
        exact gives_some (.counted distinct isCount plain builds.alone)
  | [] => gives_none
  | _ :: _ :: _ => gives_none

end

/-! ## What an expression is written with -/

/-- The lexemes without a name, a text or a pattern: numbers and such, and all that stands around
operands. -/
def isFixed : Lexeme → Bool
  | .field _ _ | .word _ | .existing _ | .given _ | .literal (.string _) => false
  | _ => true

/-- A property that the lexemes of names, texts and patterns have, and those without any. -/
structure Admits (lexicon : Lexicon) (parts : List Ingredient) (Q : Lexeme → Prop) : Prop where
  fixed : ∀ lexeme, isFixed lexeme = true → Q lexeme
  name : ∀ whole name path written, .name name path ∈ parts →
    lexicon.name? whole name path = some written → ∀ lexeme ∈ written.phrase.fragment, Q lexeme
  text : ∀ text, .literal (.string text) ∈ parts → Q (.literal (.string text)) ∧
    ∀ operator, Q (.literal (.string (likePattern operator text)))
  test : ∀ pattern sub, .pattern pattern ∈ parts → lexicon.test? pattern = some sub →
    Q (.existing sub)

theorem Admits.of_subset {Q : Lexeme → Prop} (admits : lexicon.Admits more Q)
    (subset : parts ⊆ more) : lexicon.Admits parts Q where
  fixed := admits.fixed
  name whole name path written isOne := admits.name whole name path written (subset isOne)
  text text isOne := admits.text text (subset isOne)
  test pattern sub isOne := admits.test pattern sub (subset isOne)

theorem isFixed_binary (operator : Binary) : isFixed operator.lexeme = true := by
  cases operator <;> rfl

theorem isFixed_unary (operator : Unary) : isFixed operator.lexeme = true := by
  cases operator <;> rfl

namespace Builds

/-- Every lexeme is one of an ingredient or stands around operands. -/
theorem lexemes {Q : Lexeme → Prop} (builds : lexicon.Builds parts part)
    (admits : lexicon.Admits parts Q) : ∀ lexeme ∈ part.phrase.fragment, Q lexeme := by
  have nil : ∀ lexeme ∈ ([] : Fragment), Q lexeme := List.forall_mem_nil _
  have fixed : ∀ {first rest}, isFixed first = true → (∀ lexeme ∈ rest, Q lexeme) →
      ∀ lexeme ∈ first :: rest, Q lexeme :=
    fun isOne holds => List.forall_mem_cons.mpr ⟨admits.fixed _ isOne, holds⟩
  induction builds with
  | name means => exact admits.name _ _ _ _ (List.mem_singleton_self _) means
  | literal value =>
    cases value with
    | string text => exact List.forall_mem_singleton.mpr (admits.text text List.mem_cons_self).1
    | integer | float | boolean | null => exact fixed rfl nil
  | countAll => exact fixed rfl (fixed rfl (fixed rfl (fixed rfl nil)))
  | test means =>
    exact List.forall_mem_singleton.mpr (admits.test _ _ (List.mem_singleton_self _) means)
  | @counted function parts argument distinct _ _ _ ih =>
    have ofArgument := ih (admits.of_subset (List.subset_cons_self _ _))
    have ofStar : ∀ lexeme ∈ Written.star.fragment, Q lexeme := fixed rfl nil
    simp only [Written.counted, Phrase.fragment, List.forall_mem_append]
    refine ⟨⟨⟨fixed rfl (fixed rfl nil), ?_⟩, ?_⟩, fixed rfl nil⟩
    · split
      · exact fixed rfl nil
      · exact nil
    · split
      · exact ofStar
      · exact ofArgument
  | tested operator text _ ih =>
    have isText := (admits.text text (List.mem_append_right _ List.mem_cons_self)).2 operator
    exact List.forall_mem_append.mpr ⟨ih (admits.of_subset (List.subset_append_left _ _)),
      fixed rfl (List.forall_mem_singleton.mpr isText)⟩
  | behind operator _ ih => exact fixed (isFixed_unary operator) (ih admits)
  | enclosed _ ih => exact fixed rfl (List.forall_mem_append.mpr ⟨ih admits, fixed rfl nil⟩)
  | joined operator _ _ ihLeft ihRight =>
    exact List.forall_mem_append.mpr ⟨ihLeft (admits.of_subset (List.subset_append_left _ _)),
      fixed (isFixed_binary operator) (ihRight (admits.of_subset (List.subset_append_right _ _)))⟩
  | power _ _ ihBase ihExponent =>
    have ofBase := ihBase (admits.of_subset (List.subset_append_left _ _))
    have ofExponent := ihExponent (admits.of_subset (List.subset_append_right _ _))
    simp only [Written.power, Written.ofParts, Phrase.fragment, List.forall_mem_append]
    exact ⟨⟨⟨⟨fixed rfl (fixed rfl nil), ofBase⟩, fixed rfl nil⟩, ofExponent⟩, fixed rfl nil⟩

/-- Only a name is a slot. -/
theorem eq_name_of_slot (builds : lexicon.Builds parts part) (isSlot : part.slot.isSome = true) :
    ∃ name path, parts = [.name name path] := by
  cases builds with
  | name => exact ⟨_, _, rfl⟩
  | literal | countAll | test | counted | tested | behind | enclosed | joined | power =>
    contradiction

/-- Every pattern of an expression is looked for. -/
theorem test_mem (builds : lexicon.Builds parts part) {pattern : Pattern}
    (isOne : .pattern pattern ∈ parts) : ∃ sub, lexicon.test? pattern = some sub ∧
      Lexeme.existing sub ∈ part.phrase.fragment := by
  induction builds with
  | name | literal | countAll => simp at isOne
  | @test other sub means =>
    obtain rfl : pattern = other := by simpa using isOne
    exact ⟨sub, means, List.mem_singleton_self _⟩
  | @counted function parts argument distinct _ _ builds ih =>
    replace isOne : .pattern pattern ∈ parts := by simpa using isOne
    obtain ⟨sub, means, there⟩ := ih isOne
    refine ⟨sub, means, ?_⟩
    -- Only where a slot is counted does its name vanish, and then there is no pattern.
    have value : argument.slot.isSome = false := by
      by_contra isSlot
      obtain ⟨name, path, rfl⟩ := builds.eq_name_of_slot (Bool.not_eq_false _ ▸ isSlot)
      simp at isOne
    simp [Written.counted, Phrase.fragment, value, there]
  | tested operator text _ ih =>
    obtain ⟨sub, means, there⟩ := ih (by simpa using isOne)
    exact ⟨sub, means, List.mem_append_left _ there⟩
  | behind operator _ ih =>
    obtain ⟨sub, means, there⟩ := ih isOne
    exact ⟨sub, means, List.mem_cons_of_mem _ there⟩
  | enclosed _ ih =>
    obtain ⟨sub, means, there⟩ := ih isOne
    exact ⟨sub, means, List.mem_cons_of_mem _ (List.mem_append_left _ there)⟩
  | joined operator _ _ ihLeft ihRight =>
    rcases List.mem_append.mp isOne with isOne | isOne
    · obtain ⟨sub, means, there⟩ := ihLeft isOne
      exact ⟨sub, means, List.mem_append_left _ there⟩
    · obtain ⟨sub, means, there⟩ := ihRight isOne
      exact ⟨sub, means, List.mem_append_right _ (List.mem_cons_of_mem _ there)⟩
  | power _ _ ihBase ihExponent =>
    rcases List.mem_append.mp isOne with isOne | isOne
    · obtain ⟨sub, means, there⟩ := ihBase isOne
      exact ⟨sub, means, by simp [Written.power, Written.ofParts, Phrase.fragment, there]⟩
    · obtain ⟨sub, means, there⟩ := ihExponent isOne
      exact ⟨sub, means, by simp [Written.power, Written.ofParts, Phrase.fragment, there]⟩

end Builds

/-! ## Aggregates -/

/-- The aggregate function is written. -/
def Counts (fragment : Fragment) : Prop :=
  Lexeme.function "COUNT" ∈ fragment

theorem not_counts_of_operand {lexeme : Lexeme} (stands : lexeme.isOperand = true) :
    ¬Counts [lexeme] := by
  intro counts
  obtain rfl := List.mem_singleton.mp counts
  contradiction

namespace Builds

/-- Whether an aggregate occurs is known of every phrase, if it is of names. -/
theorem counts_iff (builds : lexicon.Builds parts part)
    (names : ∀ whole name path written, lexicon.name? whole name path = some written →
      (Counts written.phrase.fragment ↔ written.aggregates = true)) :
    Counts part.phrase.fragment ↔ part.aggregates = true := by
  induction builds with
  | name means => exact names _ _ _ _ means
  | literal =>
    exact iff_of_false (not_counts_of_operand rfl) (by simp [Written.ofLiteral, Written.ofParts])
  | test => exact iff_of_false (not_counts_of_operand rfl) (by simp [Written.ofParts])
  | countAll | counted => exact iff_of_true (by simp [Counts, Phrase.fragment, Written.counted]) rfl
  | tested operator text _ ih =>
    simpa [Counts, Written.tested, Written.ofParts, Written.ofLiteral, Phrase.fragment,
      Binary.lexeme] using ih
  | behind operator _ ih =>
    cases operator <;>
      simpa [Counts, Written.behind, Written.ofParts, Phrase.fragment, Unary.lexeme] using ih
  | enclosed _ ih =>
    simpa [Counts, Written.enclosed, Written.ofParts, Phrase.fragment, Fragment.parenthesized]
      using ih
  | joined operator _ _ ihLeft ihRight =>
    cases operator <;>
      simpa [Counts, Written.joined, Written.ofParts, Phrase.fragment, Binary.lexeme]
        using or_congr ihLeft ihRight
  | power _ _ ihBase ihExponent =>
    simpa [Counts, Written.power, Written.ofParts, Phrase.fragment]
      using or_congr ihBase ihExponent

/-- Where no name stands for an aggregate, a phrase aggregates where an ingredient does. -/
theorem aggregates_iff (builds : lexicon.Builds parts part)
    (names : ∀ whole name path written, lexicon.name? whole name path = some written →
      written.aggregates = false) :
    part.aggregates = true ↔ ∃ ingredient ∈ parts, ingredient.aggregates = true := by
  induction builds with
  | name means => simp [names _ _ _ _ means, Ingredient.aggregates]
  | literal | test => simp [Written.ofLiteral, Written.ofParts, Ingredient.aggregates]
  | countAll => simp [Ingredient.aggregates]
  | counted distinct isCount => simp [Written.counted, Ingredient.aggregates, isCount]
  | tested operator text _ ih =>
    simpa [Written.tested, Written.ofParts, or_and_right, exists_or, Ingredient.aggregates] using ih
  | behind _ _ ih => simpa [Written.behind, Written.ofParts] using ih
  | enclosed _ ih => simpa [Written.enclosed, Written.ofParts] using ih
  | joined _ _ _ ihLeft ihRight =>
    simpa [Written.joined, Written.ofParts, or_and_right, exists_or] using or_congr ihLeft ihRight
  | power _ _ ihBase ihExponent =>
    simpa [Written.power, Written.ofParts, or_and_right, exists_or]
      using or_congr ihBase ihExponent

end Builds

end Lexicon

end CypherSql.Compilation
