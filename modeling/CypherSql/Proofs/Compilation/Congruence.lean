import CypherSql.Proofs.Compilation.Writing
import CypherSql.Proofs.Cypher.Mentions

/-! # What an expression is written as, in two lexicons

An expression puts phrases together in a few ways, each of which asks its operands to bind as
tightly as Cypher says.  So a relation between phrases that each of these ways keeps, and that holds
of what two lexicons give for the names of an expression, holds of what the expression is written
as in the two.

* `Congruent` — a relation, by how tightly a phrase has to bind, that all ways of writing keep.
* `Lexicon.write_related` — it holds of what an expression is written as.
-/

namespace CypherSql.Compilation

open CypherSql.Cypher
open CypherSql.Graph (Slot)
open CypherSql.Sql (Binary Phrase Precedence Subselect Unary)

/-- How tightly a part has to bind where `tight` is asked for.  Of the whole of an expression
nothing is asked. -/
def asked (whole : Bool) (tight : Nat) : Nat :=
  if whole then 1 else tight

/-- Entries with one operator of a level, whose operands are related on its right. -/
def StepRelated (R : Bool → Nat → Written → Written → Prop) (level : Nat)
    (entry entry' : Binary × Written) : Prop :=
  entry'.1 = entry.1 ∧ Precedence.cypher entry.1 = level ∧ R false (level + 1) entry.2 entry'.2

/-- A relation between what is written, given whether it is a whole and how tightly it binds, that
is kept by all ways in which expressions are written. -/
structure Congruent (R : Bool → Nat → Written → Written → Prop) : Prop where
  slot : ∀ {whole level first second}, R whole level first second →
    second.slot.isSome = first.slot.isSome
  aggregates : ∀ {whole level first second}, R whole level first second →
    second.aggregates = first.aggregates
  looser : ∀ {whole level level' first second}, level' ≤ level → R whole level first second →
    R whole level' first second
  literal : ∀ {whole} value, R whole 9 (.ofLiteral value) (.ofLiteral value)
  test : ∀ {whole} sub, R whole 9 (.ofParts (.operand (.existing sub) rfl) [])
    (.ofParts (.operand (.existing sub) rfl) [])
  countAll : ∀ {whole}, R whole 9 ⟨.count false Written.star, none, true⟩
    ⟨.count false Written.star, none, true⟩
  steps : ∀ {whole level first first' rest rest'}, R false level first first' → rest ≠ [] →
    List.Forall₂ (StepRelated R level) rest rest' →
    R whole level (.steps first rest) (.steps first' rest')
  behind : ∀ {whole part part'} operator, R false operator.operandLevel part part' →
    R whole operator.level (.behind operator part) (.behind operator part')
  raised : ∀ {whole first first' rest rest'}, R false 1 first first' → rest ≠ [] →
    List.Forall₂ (R false 1) rest rest' → R whole 9 (.raised first rest) (.raised first' rest')
  tested : ∀ {whole subject subject'} operator text, R false 9 subject subject' →
    R whole 8 (.tested subject operator text) (.tested subject' operator text)
  counted : ∀ {whole argument argument'} distinct, R true 1 argument argument' →
    R whole 9 (argument.counted distinct) (argument'.counted distinct)
  enclosed : ∀ {whole inner inner'}, R true 1 inner inner' → inner.slot = none →
    R whole 9 inner.enclosed inner'.enclosed
  slotted : ∀ {inner inner'}, R true 1 inner inner' → inner.slot.isSome = true →
    R false 9 inner inner'

theorem asked_le {whole : Bool} {tight level : Nat} (one : 1 ≤ tight) (below : tight ≤ level) :
    asked whole tight ≤ level := by
  cases whole
  · exact below
  · exact Nat.le_trans one below

theorem asked_mono {whole : Bool} {tight level : Nat} (below : tight ≤ level) :
    asked whole tight ≤ asked whole level := by
  cases whole
  · exact below
  · exact Nat.le_refl 1

/-- What two lexicons give for a name is related, where the name is allowed, and they know the same
patterns. -/
structure NamesRelated (R : Bool → Nat → Written → Written → Prop)
    (allowed : String → List String → Bool) (lexicon lexicon' : Lexicon) : Prop where
  name : ∀ whole name path, allowed name path = true →
    Option.Rel (R whole (asked whole 9)) (lexicon.name? whole name path)
      (lexicon'.name? whole name path)
  test : lexicon'.test? = lexicon.test?

/-! ## Ways of writing -/

namespace Congruent

variable {R : Bool → Nat → Written → Written → Prop} (congruent : Congruent R) {whole : Bool}

include congruent

theorem chain {level : Nat} {operator : Binary} {first first' : Written}
    {rest rest' : List Written} (binds : Precedence.cypher operator = level)
    (related : R false level first first') (nonempty : rest ≠ [])
    (each : List.Forall₂ (R false (level + 1)) rest rest') :
    R whole level (.chain operator first rest) (.chain operator first' rest') := by
  refine congruent.steps related (by simpa using nonempty) ?_
  rw [List.forall₂_map_left_iff, List.forall₂_map_right_iff]
  exact each.imp fun _ _ part => ⟨rfl, binds, part⟩

theorem tests {subject subject' : Written} : ∀ tests,
    R (whole && tests.isEmpty) (asked (whole && tests.isEmpty) 9) subject subject' →
      Option.Rel (R whole (asked whole 8)) (Lexicon.writeTests subject tests)
        (Lexicon.writeTests subject' tests)
  | [], related => by
    simp only [List.isEmpty_nil, Bool.and_true] at related
    exact .some (congruent.looser (asked_mono (by decide)) related)
  | [(operator, term)], related => by
    simp only [List.isEmpty_cons, Bool.and_false] at related
    rw [Lexicon.writeTests, Lexicon.writeTests]
    cases stringOf? term with
    | none => exact .none
    | some text =>
      exact .some (congruent.looser (asked_le (by decide) (by decide))
        (congruent.tested operator text related))
  | _ :: _ :: _, _ => .none

/-- An operator that may or may not stand in front of a part, which is the whole only where none
does. -/
theorem behindIf {negated : Bool} (operator : Unary) {tight : Nat} {part part' : Written}
    (behind : operator.operandLevel ≤ tight) (below : operator.level ≤ tight)
    (related : R (whole && !negated) (asked (whole && !negated) tight) part part') :
    R whole (asked whole operator.level) (if negated then .behind operator part else part)
      (if negated then .behind operator part' else part') := by
  cases negated with
  | false =>
    simp only [Bool.not_false, Bool.and_true] at related
    exact congruent.looser (asked_mono below) related
  | true =>
    simp only [Bool.not_true, Bool.and_false] at related
    have one : 1 ≤ operator.level := by cases operator <;> decide
    exact congruent.looser (asked_le one (Nat.le_refl _))
      (congruent.behind operator (congruent.looser behind related))

/-- Operands behind a first one, which is the whole only where there are none. -/
theorem stepsIfAny {level : Nat} (one : 1 ≤ level) {rest rest' : List (Binary × Written)}
    {first first' : Written} {last : Bool} (isLast : last = rest.isEmpty)
    (related : R (whole && last) (asked (whole && last) (level + 1)) first first')
    (each : List.Forall₂ (StepRelated R level) rest rest') :
    R whole (asked whole level) (if rest.isEmpty then first else .steps first rest)
      (if rest'.isEmpty then first' else .steps first' rest') := by
  subst isLast
  cases each with
  | nil =>
    simp only [List.isEmpty_nil, Bool.and_true] at related
    exact congruent.looser (asked_mono (Nat.le_succ level)) related
  | cons step each =>
    simp only [List.isEmpty_cons, Bool.and_false] at related
    exact congruent.looser (asked_le one (Nat.le_refl _))
      (congruent.steps (congruent.looser (Nat.le_succ level) related) (List.cons_ne_nil _ _)
        (.cons step each))

/-- A pair of parentheses is kept unless it stands around a whole or around a slot. -/
theorem enclosedIf {value value' : Written} (related : R true 1 value value') :
    R whole (asked whole 9) (if whole || value.slot.isSome then value else value.enclosed)
      (if whole || value'.slot.isSome then value' else value'.enclosed) := by
  rw [congruent.slot related]
  cases whole with
  | true => exact related
  | false =>
    cases isSlot : value.slot.isSome with
    | true => exact congruent.slotted related isSlot
    | false => exact congruent.enclosed related (Option.isNone_iff_eq_none.mp (by simp_all))

theorem countedIf {argument argument' : Written} (distinct : Bool)
    (related : R true 1 argument argument') :
    Option.Rel (R whole (asked whole 9))
      (if argument.aggregates then none else some (argument.counted distinct))
      (if argument'.aggregates then none else some (argument'.counted distinct)) := by
  rw [congruent.aggregates related]
  split
  · exact .none
  · exact .some (congruent.looser (asked_le (by decide) (Nat.le_refl 9))
      (congruent.counted distinct related))

theorem askLess {tight level : Nat} (below : tight ≤ level) {first second : Option Written}
    (related : Option.Rel (R whole (asked whole level)) first second) :
    Option.Rel (R whole (asked whole tight)) first second := by
  cases related with
  | some holds => exact .some (congruent.looser (asked_mono below) holds)
  | none => exact .none

end Congruent

/-! ## Rows -/

section

variable {α β γ δ : Type} {Q : α → β → Prop} {P : γ → δ → Prop}

theorem rel_imp {Q' : α → β → Prop} (imp : ∀ value value', Q value value' → Q' value value')
    {first : Option α} {second : Option β} (related : Option.Rel Q first second) :
    Option.Rel Q' first second := by
  cases related with
  | some holds => exact .some (imp _ _ holds)
  | none => exact .none

theorem rel_bind {first : Option α} {second : Option β} {next : α → Option γ}
    {next' : β → Option δ} (related : Option.Rel Q first second)
    (relatedNext : ∀ value value', Q value value' → Option.Rel P (next value) (next' value')) :
    Option.Rel P (first >>= next) (second >>= next') := by
  cases related with
  | some holds => exact relatedNext _ _ holds
  | none => exact .none

theorem rel_ite (condition : Bool) {first : Option α} {second : Option β}
    (related : Option.Rel Q first second) :
    Option.Rel Q (if condition then first else none) (if condition then second else none) := by
  cases condition
  · exact .none
  · exact related

theorem isEmpty_eq_of_length {xs : List α} {ys : List β} (same : xs.length = ys.length) :
    ys.isEmpty = xs.isEmpty := by
  cases xs <;> cases ys <;> simp_all

end

section

variable {R : Bool → Nat → Written → Written → Prop} {level length : Nat}

/-- As many operands as there are. -/
def RowRelated (R : Bool → Nat → Written → Written → Prop) (level length : Nat)
    (parts parts' : List Written) : Prop :=
  List.Forall₂ (R false level) parts parts' ∧ parts.length = length

def StepsRelated (R : Bool → Nat → Written → Written → Prop) (level length : Nat)
    (rest rest' : List (Binary × Written)) : Prop :=
  List.Forall₂ (StepRelated R level) rest rest' ∧ rest.length = length

theorem rel_row {first first' : Option Written} {rest rest' : Option (List Written)}
    (related : Option.Rel (R false level) first first')
    (relatedRest : Option.Rel (RowRelated R level length) rest rest') :
    Option.Rel (RowRelated R level (length + 1)) (do return (← first) :: (← rest))
      (do return (← first') :: (← rest')) :=
  rel_bind related fun _ _ part =>
    rel_bind relatedRest fun _ _ row => .some ⟨.cons part row.1, congrArg (· + 1) row.2⟩

theorem rel_step (operator : Binary) (binds : Precedence.cypher operator = level)
    {first first' : Option Written} {rest rest' : Option (List (Binary × Written))}
    (related : Option.Rel (R false (level + 1)) first first')
    (relatedRest : Option.Rel (StepsRelated R level length) rest rest') :
    Option.Rel (StepsRelated R level (length + 1)) (do return (operator, ← first) :: (← rest))
      (do return (operator, ← first') :: (← rest')) :=
  rel_bind related fun _ _ part =>
    rel_bind relatedRest fun _ _ steps =>
      .some ⟨.cons ⟨rfl, binds, part⟩ steps.1, congrArg (· + 1) steps.2⟩

end

/-! ## Whole expressions -/

section

variable {R : Bool → Nat → Written → Written → Prop} {allowed : String → List String → Bool}
  {lexicon lexicon' : Lexicon}

namespace Lexicon

mutual

theorem write_related (congruent : Congruent R) (names : NamesRelated R allowed lexicon lexicon') :
    ∀ expression, expression.everyMention allowed = true →
      Option.Rel (R true 1) (lexicon.write expression) (lexicon'.write expression)
  | ⟨[]⟩, _ => .none
  | ⟨[only]⟩, mentions =>
    writeExclusion_related congruent names true only (mentions_cons mentions).1
  | ⟨first :: second :: rest⟩, mentions => by
    obtain ⟨ofFirst, ofRest⟩ := mentions_cons mentions
    exact rel_bind (writeExclusion_related congruent names false first ofFirst) fun _ _ part =>
      rel_bind (writeExclusions_related congruent names (second :: rest) ofRest) fun _ _ row =>
        .some (congruent.chain rfl (congruent.looser (by decide) part)
          (List.ne_nil_of_length_eq_add_one row.2) row.1)

theorem writeExclusions_related (congruent : Congruent R)
    (names : NamesRelated R allowed lexicon lexicon') : ∀ operands,
      exclusionsMention allowed operands = true →
      Option.Rel (RowRelated R 2 operands.length) (lexicon.writeExclusions operands)
        (lexicon'.writeExclusions operands)
  | [], _ => .some ⟨.nil, rfl⟩
  | operand :: rest, mentions =>
    rel_row (writeExclusion_related congruent names false operand (mentions_cons mentions).1)
      (writeExclusions_related congruent names rest (mentions_cons mentions).2)

theorem writeExclusion_related (congruent : Congruent R)
    (names : NamesRelated R allowed lexicon lexicon') (whole : Bool) : ∀ operand,
      operand.everyMention allowed = true →
      Option.Rel (R whole (asked whole 2)) (lexicon.writeExclusion whole operand)
        (lexicon'.writeExclusion whole operand)
  | ⟨[]⟩, _ => .none
  | ⟨[only]⟩, mentions =>
    writeConjunction_related congruent names whole only (mentions_cons mentions).1
  | ⟨_ :: _ :: _⟩, _ => .none

theorem writeConjunction_related (congruent : Congruent R)
    (names : NamesRelated R allowed lexicon lexicon') (whole : Bool) : ∀ operand,
      operand.everyMention allowed = true →
      Option.Rel (R whole (asked whole 2)) (lexicon.writeConjunction whole operand)
        (lexicon'.writeConjunction whole operand)
  | ⟨[]⟩, _ => .none
  | ⟨[only]⟩, mentions =>
    congruent.askLess (by decide)
      (writeComparison_related congruent names whole only (mentions_cons mentions).1)
  | ⟨first :: second :: rest⟩, mentions => by
    obtain ⟨ofFirst, ofRest⟩ := mentions_cons mentions
    exact rel_bind (writeComparison_related congruent names false first ofFirst) fun _ _ part =>
      rel_bind (writeComparisons_related congruent names (second :: rest) ofRest) fun _ _ row =>
        .some (congruent.looser (asked_le (by decide) (Nat.le_refl 2))
          (congruent.chain rfl (congruent.looser (by decide) part)
            (List.ne_nil_of_length_eq_add_one row.2) row.1))

theorem writeComparisons_related (congruent : Congruent R)
    (names : NamesRelated R allowed lexicon lexicon') : ∀ operands,
      comparisonsMention allowed operands = true →
      Option.Rel (RowRelated R 3 operands.length) (lexicon.writeComparisons operands)
        (lexicon'.writeComparisons operands)
  | [], _ => .some ⟨.nil, rfl⟩
  | operand :: rest, mentions =>
    rel_row (writeComparison_related congruent names false operand (mentions_cons mentions).1)
      (writeComparisons_related congruent names rest (mentions_cons mentions).2)

theorem writeComparison_related (congruent : Congruent R)
    (names : NamesRelated R allowed lexicon lexicon') (whole : Bool) : ∀ operand,
      operand.everyMention allowed = true →
      Option.Rel (R whole (asked whole 3)) (lexicon.writeComparison whole operand)
        (lexicon'.writeComparison whole operand)
  | ⟨negated, left, rest⟩, mentions => by
    obtain ⟨ofLeft, ofRest⟩ := mentions_cons mentions
    exact rel_bind (writeAddition_related congruent names _ left ofLeft) fun _ _ part =>
      rel_bind (writeCompared_related congruent names rest ofRest part) fun _ _ compared =>
        .some (congruent.behindIf .not (by decide) (by decide) compared)

theorem writeCompared_related (congruent : Congruent R)
    (names : NamesRelated R allowed lexicon lexicon') {whole : Bool} {first first' : Written} :
    ∀ rest, comparedMention allowed rest = true →
      R (whole && rest.isEmpty) (asked (whole && rest.isEmpty) 5) first first' →
      Option.Rel (R whole (asked whole 4)) (lexicon.writeCompared first rest)
        (lexicon'.writeCompared first' rest)
  | [], _, related => by
    simp only [List.isEmpty_nil, Bool.and_true] at related
    exact .some (congruent.looser (asked_mono (by decide)) related)
  | [(operator, right)], mentions, related => by
    simp only [List.isEmpty_cons, Bool.and_false] at related
    exact rel_bind (writeAddition_related congruent names false right (mentions_cons mentions).1)
      fun _ _ second => .some (congruent.looser (asked_le (by decide) (Nat.le_refl 4))
        (congruent.steps (congruent.looser (by decide) related) (List.cons_ne_nil _ _)
          (.cons ⟨rfl, rfl, second⟩ .nil)))
  | _ :: _ :: _, _, _ => .none

theorem writeAddition_related (congruent : Congruent R)
    (names : NamesRelated R allowed lexicon lexicon') (whole : Bool) : ∀ operand,
      operand.everyMention allowed = true →
      Option.Rel (R whole (asked whole 5)) (lexicon.writeAddition whole operand)
        (lexicon'.writeAddition whole operand)
  | ⟨first, rest⟩, mentions => by
    obtain ⟨ofFirst, ofRest⟩ := mentions_cons mentions
    exact rel_bind (writeMultiplication_related congruent names _ first ofFirst) fun _ _ part =>
      rel_bind (writeAdded_related congruent names rest ofRest) fun _ _ steps =>
        .some (congruent.stepsIfAny (by decide) (isEmpty_eq_of_length steps.2) part steps.1)

theorem writeAdded_related (congruent : Congruent R)
    (names : NamesRelated R allowed lexicon lexicon') : ∀ rest,
      addedMention allowed rest = true →
      Option.Rel (StepsRelated R 5 rest.length) (lexicon.writeAdded rest)
        (lexicon'.writeAdded rest)
  | [], _ => .some ⟨.nil, rfl⟩
  | (operator, operand) :: rest, mentions =>
    rel_step (.add operator) rfl
      (writeMultiplication_related congruent names false operand (mentions_cons mentions).1)
      (writeAdded_related congruent names rest (mentions_cons mentions).2)

theorem writeMultiplication_related (congruent : Congruent R)
    (names : NamesRelated R allowed lexicon lexicon') (whole : Bool) : ∀ operand,
      operand.everyMention allowed = true →
      Option.Rel (R whole (asked whole 6)) (lexicon.writeMultiplication whole operand)
        (lexicon'.writeMultiplication whole operand)
  | ⟨first, rest⟩, mentions => by
    obtain ⟨ofFirst, ofRest⟩ := mentions_cons mentions
    exact rel_bind (writePower_related congruent names _ first ofFirst) fun _ _ part =>
      rel_bind (writeMultiplied_related congruent names rest ofRest) fun _ _ steps =>
        .some (congruent.stepsIfAny (by decide) (isEmpty_eq_of_length steps.2) part steps.1)

theorem writeMultiplied_related (congruent : Congruent R)
    (names : NamesRelated R allowed lexicon lexicon') : ∀ rest,
      multipliedMention allowed rest = true →
      Option.Rel (StepsRelated R 6 rest.length) (lexicon.writeMultiplied rest)
        (lexicon'.writeMultiplied rest)
  | [], _ => .some ⟨.nil, rfl⟩
  | (operator, operand) :: rest, mentions =>
    rel_step (.multiply operator) rfl
      (writePower_related congruent names false operand (mentions_cons mentions).1)
      (writeMultiplied_related congruent names rest (mentions_cons mentions).2)

theorem writePower_related (congruent : Congruent R)
    (names : NamesRelated R allowed lexicon lexicon') (whole : Bool) : ∀ operand,
      operand.everyMention allowed = true →
      Option.Rel (R whole (asked whole 7)) (lexicon.writePower whole operand)
        (lexicon'.writePower whole operand)
  | ⟨[]⟩, _ => .none
  | ⟨[only]⟩, mentions =>
    writeSigned_related congruent names whole only (mentions_cons mentions).1
  | ⟨first :: second :: rest⟩, mentions => by
    obtain ⟨ofFirst, ofRest⟩ := mentions_cons mentions
    exact rel_bind (writeSigned_related congruent names false first ofFirst) fun _ _ part =>
      rel_bind (writeSigneds_related congruent names (second :: rest) ofRest) fun _ _ row =>
        .some (congruent.looser (asked_le (by decide) (by decide))
          (congruent.raised (congruent.looser (by decide) part)
            (List.ne_nil_of_length_eq_add_one row.2)
            (row.1.imp fun _ _ => congruent.looser (by decide))))

theorem writeSigneds_related (congruent : Congruent R)
    (names : NamesRelated R allowed lexicon lexicon') : ∀ operands,
      signedsMention allowed operands = true →
      Option.Rel (RowRelated R 7 operands.length) (lexicon.writeSigneds operands)
        (lexicon'.writeSigneds operands)
  | [], _ => .some ⟨.nil, rfl⟩
  | operand :: rest, mentions =>
    rel_row (writeSigned_related congruent names false operand (mentions_cons mentions).1)
      (writeSigneds_related congruent names rest (mentions_cons mentions).2)

theorem writeSigned_related (congruent : Congruent R)
    (names : NamesRelated R allowed lexicon lexicon') (whole : Bool) : ∀ operand,
      operand.everyMention allowed = true →
      Option.Rel (R whole (asked whole 7)) (lexicon.writeSigned whole operand)
        (lexicon'.writeSigned whole operand)
  | ⟨negative, term, tests⟩, mentions =>
    rel_bind (writeTerm_related congruent names _ term (mentions_cons mentions).1)
      fun _ _ subject => rel_bind (congruent.tests tests subject) fun _ _ tested =>
        .some (congruent.behindIf .negate (by decide) (by decide) tested)

theorem writeTerm_related (congruent : Congruent R)
    (names : NamesRelated R allowed lexicon lexicon') (whole : Bool) : ∀ term,
      term.everyMention allowed = true →
      Option.Rel (R whole (asked whole 9)) (lexicon.writeTerm whole term)
        (lexicon'.writeTerm whole term)
  | ⟨.name name, path⟩, mentions => names.name whole name path mentions
  | ⟨.literal value, path⟩, mentions =>
    rel_ite path.isEmpty (writeAtom_related congruent names whole (.literal value) mentions)
  | ⟨.call name distinct arguments, path⟩, mentions =>
    rel_ite path.isEmpty
      (writeAtom_related congruent names whole (.call name distinct arguments) mentions)
  | ⟨.countAll, path⟩, mentions =>
    rel_ite path.isEmpty (writeAtom_related congruent names whole .countAll mentions)
  | ⟨.parenthesized inner, path⟩, mentions =>
    rel_ite path.isEmpty (writeAtom_related congruent names whole (.parenthesized inner) mentions)
  | ⟨.pattern pattern, path⟩, mentions =>
    rel_ite path.isEmpty (writeAtom_related congruent names whole (.pattern pattern) mentions)

theorem writeAtom_related (congruent : Congruent R)
    (names : NamesRelated R allowed lexicon lexicon') (whole : Bool) : ∀ atom,
      atom.everyMention allowed = true →
      Option.Rel (R whole (asked whole 9)) (lexicon.writeAtom whole atom)
        (lexicon'.writeAtom whole atom)
  | .name name, mentions => names.name whole name [] mentions
  | .literal value, _ =>
    .some (congruent.looser (asked_le (by decide) (Nat.le_refl 9)) (congruent.literal value))
  | .call name distinct arguments, mentions =>
    rel_ite (Text.sameIgnoringCase name "COUNT")
      (writeCount_related congruent names distinct arguments mentions)
  | .countAll, _ =>
    .some (congruent.looser (asked_le (by decide) (Nat.le_refl 9)) congruent.countAll)
  | .parenthesized inner, mentions =>
    rel_bind (write_related congruent names inner mentions) fun _ _ value =>
      .some (congruent.enclosedIf value)
  | .pattern pattern, _ => by
    rw [writeAtom, writeAtom, names.test]
    cases lexicon.test? pattern with
    | none => exact .none
    | some sub =>
      exact .some (congruent.looser (asked_le (by decide) (Nat.le_refl 9)) (congruent.test sub))

theorem writeCount_related (congruent : Congruent R)
    (names : NamesRelated R allowed lexicon lexicon') {whole : Bool} (distinct : Bool) :
    ∀ arguments, argumentsMention allowed arguments = true →
      Option.Rel (R whole (asked whole 9)) (lexicon.writeCount distinct arguments)
        (lexicon'.writeCount distinct arguments)
  | [argument], mentions =>
    rel_bind (write_related congruent names argument (mentions_cons mentions).1) fun _ _ value =>
      congruent.countedIf distinct value
  | [], _ => .none
  | _ :: _ :: _, _ => .none

end

end Lexicon

end

end CypherSql.Compilation
