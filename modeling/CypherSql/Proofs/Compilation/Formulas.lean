import CypherSql.Proofs.Compilation.Operators
import CypherSql.Proofs.Sql.Truth

/-! # Formulas of a predicate

A predicate is a formula over its comparisons.  Parentheses are dropped around the whole of it,
written around parts and written again where a disjunction goes under an `AND`, and none of this
changes the cases in which the formula holds.

* `Expression.truth` — whether the formula of an expression holds.
* `Lexicon.write_truth` — what it is written as holds in the same cases.
-/

namespace CypherSql

namespace Cypher

/-! ## Formulas -/

section

variable (atom : Comparison → Bool)

mutual

/-- Whether the formula of an expression holds, where it is known which comparisons do.  What
stands alone between parentheses is a part of the formula. -/
def Expression.truth : Expression → Bool
  | ⟨operands⟩ => anyTrue operands

def anyTrue : List Exclusion → Bool
  | [] => false
  | operand :: rest => operand.truth || anyTrue rest

def Exclusion.truth : Exclusion → Bool
  | ⟨operands⟩ => oddTrue operands

def oddTrue : List Conjunction → Bool
  | [] => false
  | operand :: rest => operand.truth ^^ oddTrue rest

def Conjunction.truth : Conjunction → Bool
  | ⟨operands⟩ => allTrue operands

def allTrue : List Comparison → Bool
  | [] => true
  | operand :: rest => operand.truth && allTrue rest

def Comparison.truth : Comparison → Bool
  | ⟨negated, ⟨⟨⟨[⟨false, ⟨.parenthesized inner, []⟩, []⟩]⟩, []⟩, []⟩, []⟩ => negated ^^ inner.truth
  | ⟨negated, left, rest⟩ => negated ^^ atom ⟨false, left, rest⟩

end

end

end Cypher

namespace Compilation

open CypherSql.Cypher
open CypherSql.Sql (Binary Fragment Phrase Precedence Reads)

/-! ## Parts that are no formulas -/

/-- The term that a sum consists of, if no operator is applied. -/
def Addition.term? : Addition → Option Term
  | ⟨⟨⟨[⟨false, term, []⟩]⟩, []⟩, []⟩ => some term
  | _ => none

/-- The expression between the parentheses that a sum consists of. -/
def Addition.inner? (operand : Addition) : Option Expression :=
  match Addition.term? operand with
  | some ⟨.parenthesized inner, []⟩ => some inner
  | _ => none

/-- Something is written in the same way where it is a whole, and it is not a pair of
parentheses. -/
def Apart (write : Bool → Option Written) : Prop :=
  ∀ whole, write whole = write false ∧
    ∀ written, write whole = some written → ∀ inner, written.phrase ≠ .group inner

theorem steps_ne_group {first : Written} {rest : List (Binary × Written)} (nonempty : rest ≠ [])
    (inner : Phrase) : (Written.steps first rest).phrase ≠ .group inner := by
  obtain ⟨step, _, left, outermost⟩ := Written.exists_stepsFrom_eq nonempty first.phrase
  rw [Written.steps, Written.ofParts, outermost]
  exact Phrase.noConfusion

theorem raised_ne_group {first : Written} {rest : List Written} (nonempty : rest ≠ [])
    (inner : Phrase) : (Written.raised first rest).phrase ≠ .group inner := by
  obtain ⟨base, exponent, outermost⟩ := Written.exists_powersFrom_eq nonempty first.phrase
  rw [Written.raised, Written.ofParts, outermost]
  exact Phrase.noConfusion

namespace Lexicon

variable {settings : Settings} {graph : Graph}

/-- A sum that is a term is written as the term. -/
theorem writeAddition_of_term {lexicon : Lexicon} {operand : Addition} {term : Term}
    (isTerm : Addition.term? operand = some term) (whole : Bool) :
    lexicon.writeAddition whole operand = lexicon.writeTerm whole term := by
  unfold Addition.term? at isTerm
  split at isTerm
  · obtain rfl := Option.some.inj isTerm
    simp [writeAddition, writeMultiplication, writePower, writeSigned, writeTests, writeAdded,
      writeMultiplied]
  · contradiction

theorem name_ne_group {whole : Bool} {name : String} {path : List String} {written : Written}
    (means : (plain settings graph).name? whole name path = some written) (inner : Phrase) :
    written.phrase ≠ .group inner := by
  simp only [plain, meaning] at means
  split at means
  · obtain rfl := Option.some.inj means
    unfold Written.ofSlot
    split <;> exact Phrase.noConfusion
  · contradiction
  · split at means
    · obtain rfl := Option.some.inj means
      exact Phrase.noConfusion
    · contradiction

theorem count_ne_group {lexicon : Lexicon} {distinct : Bool} {arguments : List Expression}
    {written : Written} (writes : lexicon.writeCount distinct arguments = some written)
    (inner : Phrase) : written.phrase ≠ .group inner := by
  match arguments, writes with
  | [argument], writes =>
    simp only [writeCount, Option.bind_eq_bind, Option.bind_eq_some_iff, Option.pure_def,
      Option.ite_none_left_eq_some] at writes
    obtain ⟨value, _, _, same⟩ := writes
    obtain rfl := Option.some.inj same
    exact Phrase.noConfusion

/-- A term that is no pair of parentheses is written in the same way everywhere. -/
theorem apart_term {term : Term} (other : ∀ inner, term ≠ ⟨.parenthesized inner, []⟩) :
    Apart fun whole => (plain settings graph).writeTerm whole term := by
  obtain ⟨atom, path⟩ := term
  intro whole
  cases atom with
  | name name => exact ⟨rfl, fun _ means => name_ne_group means⟩
  | parenthesized inner =>
    cases path with
    | nil => exact absurd rfl (other inner)
    | cons => exact ⟨rfl, fun _ writes => nomatch writes⟩
  | literal | countAll =>
    refine ⟨rfl, fun written writes inner => ?_⟩
    simp only [writeTerm, writeAtom, Option.ite_none_right_eq_some] at writes
    obtain ⟨_, same⟩ := writes
    obtain rfl := Option.some.inj same
    exact Phrase.noConfusion
  | call name distinct arguments =>
    refine ⟨rfl, fun written writes inner => ?_⟩
    simp only [writeTerm, writeAtom, Option.ite_none_right_eq_some] at writes
    exact count_ne_group writes.2.2 inner
  | pattern pattern =>
    refine ⟨rfl, fun written writes inner => ?_⟩
    simp only [writeTerm, writeAtom, Option.ite_none_right_eq_some, Option.bind_eq_bind,
      Option.bind_eq_some_iff, Option.pure_def] at writes
    obtain ⟨_, sub, _, same⟩ := writes
    obtain rfl := Option.some.inj same
    exact Phrase.noConfusion

theorem ne_nil_of_writeAdded {lexicon : Lexicon} {step : AdditiveOperator × Multiplication}
    {rest : List (AdditiveOperator × Multiplication)} {written : List (Binary × Written)}
    (writes : lexicon.writeAdded (step :: rest) = some written) : written ≠ [] := by
  simp only [writeAdded, Option.bind_eq_bind, Option.bind_eq_some_iff, Option.pure_def] at writes
  obtain ⟨_, _, _, _, same⟩ := writes
  rw [← Option.some.inj same]
  exact List.cons_ne_nil _ _

theorem ne_nil_of_writeMultiplied {lexicon : Lexicon} {step : MultiplicativeOperator × Power}
    {rest : List (MultiplicativeOperator × Power)} {written : List (Binary × Written)}
    (writes : lexicon.writeMultiplied (step :: rest) = some written) : written ≠ [] := by
  simp only [writeMultiplied, Option.bind_eq_bind, Option.bind_eq_some_iff, Option.pure_def]
    at writes
  obtain ⟨_, _, _, _, same⟩ := writes
  rw [← Option.some.inj same]
  exact List.cons_ne_nil _ _

theorem ne_nil_of_writeSigneds {lexicon : Lexicon} {operand : Signed} {rest : List Signed}
    {written : List Written} (writes : lexicon.writeSigneds (operand :: rest) = some written) :
    written ≠ [] := by
  simp only [writeSigneds, Option.bind_eq_bind, Option.bind_eq_some_iff, Option.pure_def] at writes
  obtain ⟨_, _, _, _, same⟩ := writes
  rw [← Option.some.inj same]
  exact List.cons_ne_nil _ _

theorem apart_signed {lexicon : Lexicon} {operand : Signed}
    (operators : operand.negative = true ∨ operand.tests ≠ []) :
    Apart fun whole => lexicon.writeSigned whole operand := by
  obtain ⟨negative, term, tests⟩ := operand
  intro whole
  have inside : (whole && !negative && tests.isEmpty) = false := by
    rcases operators with isNegative | some
    · simp_all
    · cases tests <;> simp_all
  refine ⟨by simp [writeSigned, inside], fun written writes inner => ?_⟩
  simp only [writeSigned, Option.bind_eq_bind, Option.bind_eq_some_iff, Option.pure_def] at writes
  obtain ⟨subject, _, tested, isTested, same⟩ := writes
  obtain rfl := Option.some.inj same
  cases negative with
  | true => exact Phrase.noConfusion
  | false =>
    rcases tests with _ | ⟨⟨operator, operand⟩, _ | ⟨_, _⟩⟩
    · simp at operators
    · obtain ⟨text, _, rfl⟩ := Option.map_eq_some_iff.mp isTested
      exact Phrase.noConfusion
    · exact absurd isTested (Option.some_ne_none tested).symm

/-- A sum with operators is written in the same way everywhere. -/
theorem apart_addition {lexicon : Lexicon} {operand : Addition}
    (operators : Addition.term? operand = none) :
    Apart fun whole => lexicon.writeAddition whole operand := by
  -- The loosest operator is the outermost one.  A level without operators passes its operand on.
  obtain ⟨⟨⟨operands⟩, products⟩, sums⟩ := operand
  cases sums with
  | cons sum sums =>
    intro whole
    refine ⟨by simp [writeAddition], fun written writes => ?_⟩
    simp only [writeAddition, Option.bind_eq_bind, Option.bind_eq_some_iff, Option.pure_def]
      at writes
    obtain ⟨left, _, right, isRight, same⟩ := writes
    obtain rfl := Option.some.inj same
    rw [if_neg (by simpa using ne_nil_of_writeAdded isRight)]
    exact steps_ne_group (ne_nil_of_writeAdded isRight)
  | nil =>
    have noSum : ∀ whole, lexicon.writeAddition whole ⟨⟨⟨operands⟩, products⟩, []⟩ =
        lexicon.writeMultiplication whole ⟨⟨operands⟩, products⟩ := by
      simp [writeAddition, writeAdded]
    simp only [noSum]
    cases products with
    | cons product products =>
      intro whole
      refine ⟨by simp [writeMultiplication], fun written writes => ?_⟩
      simp only [writeMultiplication, Option.bind_eq_bind, Option.bind_eq_some_iff,
        Option.pure_def] at writes
      obtain ⟨left, _, right, isRight, same⟩ := writes
      obtain rfl := Option.some.inj same
      rw [if_neg (by simpa using ne_nil_of_writeMultiplied isRight)]
      exact steps_ne_group (ne_nil_of_writeMultiplied isRight)
    | nil =>
      have noProduct : ∀ whole, lexicon.writeMultiplication whole ⟨⟨operands⟩, []⟩ =
          lexicon.writePower whole ⟨operands⟩ := by
        simp [writeMultiplication, writeMultiplied]
      simp only [noProduct]
      rcases operands with _ | ⟨⟨negative, term, tests⟩, _ | ⟨second, rest⟩⟩
      · exact fun _ => ⟨rfl, fun written writes => absurd writes (Option.some_ne_none written).symm⟩
      · refine apart_signed ?_
        cases negative with
        | true => exact .inl rfl
        | false =>
          refine .inr fun none => ?_
          obtain rfl : tests = [] := none
          contradiction
      · intro whole
        refine ⟨rfl, fun written writes => ?_⟩
        simp only [writePower, Option.bind_eq_bind, Option.bind_eq_some_iff, Option.pure_def]
          at writes
        obtain ⟨base, _, exponents, areExponents, same⟩ := writes
        obtain rfl := Option.some.inj same
        exact raised_ne_group (ne_nil_of_writeSigneds areExponents)

/-! ## Formulas that are written -/

variable (holds : Fragment → Bool)

/-- What is written as a comparison holds. -/
def atomHolds (lexicon : Lexicon) (comparison : Comparison) : Bool :=
  (lexicon.writeComparison false comparison).any fun written => holds written.phrase.fragment

variable {holds}

theorem truth_chain_or (first : Written) (rest : List Written) :
    (Written.chain .or first rest).phrase.truth holds =
      (first.phrase.truth holds || rest.any fun part => part.phrase.truth holds) := by
  simp only [Written.chain, Written.steps, Written.ofParts]
  generalize first.phrase = phrase
  induction rest generalizing phrase with
  | nil => simp
  | cons part rest ih => simp [ih, Phrase.truth, Bool.or_assoc]

theorem truth_chain_and (first : Written) (rest : List Written) :
    (Written.chain .and first rest).phrase.truth holds =
      (first.phrase.truth holds && rest.all fun part => part.phrase.truth holds) := by
  simp only [Written.chain, Written.steps, Written.ofParts]
  generalize first.phrase = phrase
  induction rest generalizing phrase with
  | nil => simp
  | cons part rest ih => simp [ih, Phrase.truth, Bool.and_assoc]

theorem truth_behindIf (negated : Bool) (part : Written) :
    (if negated then Written.behind .not part else part).phrase.truth holds =
      (negated ^^ part.phrase.truth holds) := by
  cases negated <;> simp [Written.behind, Written.ofParts, Phrase.truth]

theorem sizeOf_inner {operand : Addition} {inner : Expression}
    (isInner : Addition.inner? operand = some inner) : sizeOf inner < sizeOf operand := by
  unfold Addition.inner? Addition.term? at isInner
  split at isInner
  · next isTerm =>
    split at isTerm
    · obtain rfl := Option.some.inj isInner
      obtain rfl := Option.some.inj isTerm
      simp
      omega
    · contradiction
  · contradiction

/-- What is no pair of parentheses is a comparison of its formula. -/
theorem comparison_truth {atom : Comparison → Bool} {negated : Bool} {left : Addition}
    {rest : List (ComparisonOperator × Addition)}
    (alone : rest ≠ [] ∨ Addition.inner? left = none) :
    Comparison.truth atom ⟨negated, left, rest⟩ = (negated ^^ atom ⟨false, left, rest⟩) := by
  unfold Comparison.truth
  split
  · next same =>
    obtain ⟨rfl, rfl, rfl⟩ := Comparison.mk.inj same
    simp [Addition.inner?, Addition.term?] at alone
  · next same =>
    obtain ⟨rfl, rfl, rfl⟩ := Comparison.mk.inj same
    rfl

/-- Between parentheses stands a part of the formula. -/
theorem comparison_truth_inner {atom : Comparison → Bool} {negated : Bool} {left : Addition}
    {inner : Expression} (isInner : Addition.inner? left = some inner) :
    Comparison.truth atom ⟨negated, left, []⟩ = (negated ^^ inner.truth atom) := by
  unfold Addition.inner? Addition.term? at isInner
  split at isInner
  · next isTerm =>
    split at isTerm
    · obtain rfl := Option.some.inj isInner
      obtain rfl := Option.some.inj isTerm
      rw [Comparison.truth]
    · contradiction
  · contradiction

theorem apart_of_inner_none {operand : Addition} (alone : Addition.inner? operand = none) :
    Apart fun whole => (plain settings graph).writeAddition whole operand := by
  cases isTerm : Addition.term? operand with
  | none => exact apart_addition isTerm
  | some term =>
    simp only [writeAddition_of_term isTerm]
    apply apart_term
    rintro inner rfl
    simp [Addition.inner?, isTerm] at alone

/-- Between parentheses a formula stays what it is, whether the parentheses are kept or not. -/
theorem truth_of_inner {lexicon : Lexicon} {operand : Addition} {inner : Expression}
    (isInner : Addition.inner? operand = some inner) {whole : Bool} {written : Written}
    (writes : lexicon.writeAddition whole operand = some written) :
    ∃ value, lexicon.write inner = some value ∧
      written.phrase.truth holds = value.phrase.truth holds := by
  unfold Addition.inner? at isInner
  split at isInner
  · next isTerm =>
    obtain rfl := Option.some.inj isInner
    rw [writeAddition_of_term isTerm] at writes
    simp only [writeTerm, writeAtom, List.isEmpty_nil, if_true, Option.bind_eq_bind,
      Option.bind_eq_some_iff, Option.pure_def] at writes
    obtain ⟨value, isValue, same⟩ := writes
    obtain rfl := Option.some.inj same
    refine ⟨value, isValue, ?_⟩
    split
    · rfl
    · rfl
  · contradiction

/-- What no pair of parentheses stands around is one comparison of the formula. -/
theorem atomHolds_eq {whole negated : Bool} {left : Addition}
    {rest : List (ComparisonOperator × Addition)}
    (alone : rest ≠ [] ∨ Addition.inner? left = none) {first compared : Written}
    (isFirst : (plain settings graph).writeAddition (whole && !negated && rest.isEmpty) left =
      some first)
    (isCompared : (plain settings graph).writeCompared first rest = some compared) :
    compared.phrase.truth holds = atomHolds holds (plain settings graph) ⟨false, left, rest⟩ := by
  -- There are no parentheses to drop, so it does not matter whether this is a whole.
  have same : (plain settings graph).writeAddition false left = some first := by
    rw [← isFirst]
    rcases alone with some | none
    · cases rest with
      | nil => contradiction
      | cons => simp
    · exact (apart_of_inner_none none _).1.symm
  -- No `OR`, `AND` or `NOT` is outermost, so it holds as a whole or does not.
  have whole : compared.phrase.truth holds = holds compared.phrase.fragment := by
    match rest, isCompared with
    | [], isCompared =>
      obtain rfl := Option.some.inj isCompared
      have isNone : Addition.inner? left = none := alone.resolve_left fun some => some rfl
      have other := (apart_of_inner_none isNone false).2 _ same
      have related := writeAddition_related grammatical_fits.congruent (names_fit settings graph)
        false left (left.everyMention_of_all fun _ _ => rfl)
      rw [same] at related
      cases related with
      | some bears =>
        exact Phrase.truth_of_fits Phrase.cypher_looser other
          (Phrase.fits_mono (by decide) bears.holds)
    | [(operator, right)], isCompared =>
      simp only [writeCompared, Option.bind_eq_bind, Option.bind_eq_some_iff, Option.pure_def]
        at isCompared
      obtain ⟨second, _, same⟩ := isCompared
      obtain rfl := Option.some.inj same
      rfl
  simp [atomHolds, writeComparison, same, isCompared, whole]

mutual

/-- What an expression is written as holds in the cases in which its formula does. -/
theorem write_truth : ∀ expression written,
    (plain settings graph).write expression = some written →
      written.phrase.truth holds = expression.truth (atomHolds holds (plain settings graph))
  | ⟨[]⟩, _, writes => nomatch writes
  | ⟨[only]⟩, written, writes => by
    have same := writeExclusion_truth true only written writes
    simpa [Expression.truth, anyTrue] using same
  | ⟨first :: second :: rest⟩, written, writes => by
    simp only [write, Option.bind_eq_bind, Option.bind_eq_some_iff, Option.pure_def] at writes
    obtain ⟨left, isLeft, others, areOthers, same⟩ := writes
    obtain rfl := Option.some.inj same
    have ofLeft := writeExclusion_truth false first left isLeft
    have ofOthers := writeExclusions_truth (second :: rest) others areOthers
    rw [truth_chain_or, ofLeft, ofOthers]
    rfl
termination_by expression => sizeOf expression

theorem writeExclusions_truth : ∀ operands written,
    (plain settings graph).writeExclusions operands = some written →
      (written.any fun part => part.phrase.truth holds) =
        anyTrue (atomHolds holds (plain settings graph)) operands
  | [], written, writes => by
    obtain rfl := Option.some.inj writes
    rfl
  | operand :: rest, written, writes => by
    simp only [writeExclusions, Option.bind_eq_bind, Option.bind_eq_some_iff, Option.pure_def]
      at writes
    obtain ⟨first, isFirst, others, areOthers, same⟩ := writes
    obtain rfl := Option.some.inj same
    rw [List.any_cons, writeExclusion_truth false operand first isFirst,
      writeExclusions_truth rest others areOthers]
    rfl
termination_by operands => sizeOf operands

theorem writeExclusion_truth (whole : Bool) : ∀ operand written,
    (plain settings graph).writeExclusion whole operand = some written →
      written.phrase.truth holds = operand.truth (atomHolds holds (plain settings graph))
  | ⟨[]⟩, _, writes => nomatch writes
  | ⟨[only]⟩, written, writes => by
    have same := writeConjunction_truth whole only written writes
    simpa [Exclusion.truth, oddTrue] using same
  | ⟨_ :: _ :: _⟩, _, writes => nomatch writes
termination_by operand => sizeOf operand

theorem writeConjunction_truth (whole : Bool) : ∀ operand written,
    (plain settings graph).writeConjunction whole operand = some written →
      written.phrase.truth holds = operand.truth (atomHolds holds (plain settings graph))
  | ⟨[]⟩, _, writes => nomatch writes
  | ⟨[only]⟩, written, writes => by
    have same := writeComparison_truth whole only written writes
    simpa [Conjunction.truth, allTrue] using same
  | ⟨first :: second :: rest⟩, written, writes => by
    simp only [writeConjunction, Option.bind_eq_bind, Option.bind_eq_some_iff, Option.pure_def]
      at writes
    obtain ⟨left, isLeft, others, areOthers, same⟩ := writes
    obtain rfl := Option.some.inj same
    have ofLeft := writeComparison_truth false first left isLeft
    have ofOthers := writeComparisons_truth (second :: rest) others areOthers
    rw [truth_chain_and, ofLeft, ofOthers]
    rfl
termination_by operand => sizeOf operand

theorem writeComparisons_truth : ∀ operands written,
    (plain settings graph).writeComparisons operands = some written →
      (written.all fun part => part.phrase.truth holds) =
        allTrue (atomHolds holds (plain settings graph)) operands
  | [], written, writes => by
    obtain rfl := Option.some.inj writes
    rfl
  | operand :: rest, written, writes => by
    simp only [writeComparisons, Option.bind_eq_bind, Option.bind_eq_some_iff, Option.pure_def]
      at writes
    obtain ⟨first, isFirst, others, areOthers, same⟩ := writes
    obtain rfl := Option.some.inj same
    rw [List.all_cons, writeComparison_truth false operand first isFirst,
      writeComparisons_truth rest others areOthers]
    rfl
termination_by operands => sizeOf operands

theorem writeComparison_truth (whole : Bool) : ∀ operand written,
    (plain settings graph).writeComparison whole operand = some written →
      written.phrase.truth holds = operand.truth (atomHolds holds (plain settings graph))
  | ⟨negated, left, rest⟩, written, writes => by
    simp only [writeComparison, Option.bind_eq_bind, Option.bind_eq_some_iff, Option.pure_def]
      at writes
    obtain ⟨first, isFirst, compared, isCompared, same⟩ := writes
    obtain rfl := Option.some.inj same
    rw [truth_behindIf]
    -- A lone pair of parentheses is a part of the formula, all else is one of its comparisons.
    match rest, isInner : Addition.inner? left, isFirst, isCompared with
    | [], some inner, isFirst, isCompared =>
      obtain rfl := Option.some.inj isCompared
      obtain ⟨value, isValue, same⟩ := truth_of_inner isInner isFirst
      have smaller := sizeOf_inner isInner
      rw [comparison_truth_inner isInner, same, write_truth inner value isValue]
    | [], none, isFirst, isCompared =>
      rw [comparison_truth (.inr isInner), atomHolds_eq (.inr isInner) isFirst isCompared]
    | step :: rest, _, isFirst, isCompared =>
      have some := List.cons_ne_nil step rest
      rw [comparison_truth (.inl some), atomHolds_eq (.inl some) isFirst isCompared]
termination_by operand => sizeOf operand

end

end Lexicon

end Compilation

end CypherSql
