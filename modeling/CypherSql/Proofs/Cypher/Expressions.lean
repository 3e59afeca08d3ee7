import CypherSql.Proofs.Cypher.Atoms

/-! # How expressions are read

One theorem for every level of precedence: the text of a level is read back in front of
the marks of higher levels.

* `term_reads`, `signed_reads`, …, `disjunction_reads` — the levels.
* `nested_reads` — expressions of any depth, by induction on the depth.
* `expression_reads` — every canonical expression is read back.
-/

namespace CypherSql.Cypher.Parser

open CypherSql.Text (isIdentifier)

variable {expression : Parser Expression} {depth : Nat} {rest : List Char}

/-! ## Terms -/

theorem property_accepts {key : String} (plain : isIdentifier key = true) (ends : EndsAtom rest) :
    property (dropSpaces ('.' :: key.toList ++ rest)) = .accept key (dropSpaces rest) := by
  refine spacing_accepts ?_
  rw [dropSpaces_dropSpaces]
  exact (bind_accepts char_accepts).trans (symbolicName_accepts plain ends.boundary)

theorem path_accepts {path : List String} (plain : path.all isIdentifier = true)
    (ends : EndsAtom rest) (stops : Rejects property (dropSpaces rest)) :
    EndsAtom (path.flatMap (fun key => '.' :: key.toList) ++ rest) ∧
      many property (dropSpaces (path.flatMap (fun key => '.' :: key.toList) ++ rest)) =
        .accept path (dropSpaces rest) := by
  refine many_reads (fun key isIn more endsLater => ?_) (fun key _ => ?_) ends stops
  · have isPlain := List.all_eq_true.mp plain key isIn
    exact ⟨endsAtom_property isPlain, property_accepts isPlain endsLater⟩
  · exact visible_pos List.mem_cons_self rfl

theorem term_reads (inner : ReadsExpressions expression depth) {value : Term}
    (canonical : value.canonical = true) (short : value.chars.length ≤ depth) :
    Reads (term expression) OpensTerm 0 value.chars value := by
  obtain ⟨atom, path⟩ := value
  have both : (atom.canonical && path.all isIdentifier) = true := canonical
  rw [Bool.and_eq_true] at both
  have unfolded : Term.chars ⟨atom, path⟩ =
    atom.chars ++ path.flatMap fun key => '.' :: key.toList := rfl
  rw [unfolded] at short ⊢
  rw [List.length_append] at short
  constructor
  · intro rest tail
    obtain ⟨ends, -⟩ := path_accepts both.2 tail.endsAtom tail.property_rejects
    rw [List.append_assoc]
    exact opensTerm_atom both.1 ends
  · intro rest tail
    obtain ⟨ends, pathRead⟩ := path_accepts both.2 tail.endsAtom tail.property_rejects
    obtain ⟨final, read, behind⟩ := atom_accepts inner both.1 (by omega) ends
    have opens := opensTerm_atom both.1 ends
    have spaced := spacing_accepts (opens.bare.symm ▸ read)
    rw [behind] at spaced
    rw [List.append_assoc, term, bind_accepts spaced, bind_accepts pathRead]
    rfl

theorem signed_reads (inner : ReadsExpressions expression depth) {value : Signed}
    (canonical : value.canonical = true) (short : value.chars.length ≤ depth) :
    Reads (signed expression) (Leads value.negative) 1 value.chars value := by
  obtain ⟨negative, value, tests⟩ := value
  have both : (value.canonical && testedCanonical tests) = true := canonical
  rw [Bool.and_eq_true, testedCanonical_eq, List.all_eq_true] at both
  have unfolded : Signed.chars ⟨negative, value, tests⟩ =
    (if negative then ['-'] else []) ++ value.chars ++ testedChars tests := rfl
  rw [unfolded, testedChars_eq, List.append_assoc] at short ⊢
  simp only [List.length_append] at short
  have each : ∀ test ∈ tests, Reads (term expression) OpensTerm 0 test.2.chars test.2 := by
    intro test isIn
    have bounded := length_le_steps (fun operator : StringOperator => spaced operator.symbol)
      Term.chars isIn
    exact term_reads inner (both.2 test isIn) (by omega)
  have reads : ∀ mark : Option Char, Reads
      (do let value ← term expression
          let tests ← many (step stringOperator (term expression))
          return (⟨mark == some '-', value, tests⟩ : Signed)) OpensTerm 1
      (value.chars ++ tests.flatMap fun test => spaced test.1.symbol ++ test.2.chars)
      ⟨mark == some '-', value, tests⟩ := fun mark =>
    operated_reads (Signed.mk (mark == some '-')) .test Term.chars (fun _ => OpensTerm)
      (fun _ => rfl) marks_test (term_reads inner both.1 (by omega)) each
      (fun _ _ opens => opens.bare) (fun _ _ _ _ => trivial)
      fun rest tail => rejects_of_ignoring (tail.reader_rejects (.test .contains) (by decide))
  -- The sign is read first.  What is behind it does not depend on it.
  cases negative with
  | true =>
    constructor
    · intro rest tail
      exact ⟨_, rfl, (reads none).opens rest tail⟩
    · intro rest tail
      have opens := (reads none).opens rest tail
      have mark : spacing sign ('-' :: (value.chars ++ (tests.flatMap fun test =>
          spaced test.1.symbol ++ test.2.chars) ++ rest)) = .accept '-' _ :=
        spacing_accepts_bare rfl rfl opens.bare
      exact (bind_accepts (optional_accepts mark)).trans ((reads (some '-')).accepts rest tail)
  | false =>
    constructor
    · intro rest tail
      exact (reads none).opens rest tail
    · intro rest tail
      have opens := (reads none).opens rest tail
      have noMark := optional_rejected (spacing_rejects
        (opens.bare.symm ▸ orElse_rejects opens.notMinus opens.notPlus))
      exact (bind_accepts noMark).trans ((reads none).accepts rest tail)

/-! ## Powers, products and sums -/

theorem Leads.bare {negative : Bool} {input : List Char} (leads : Leads negative input) :
    dropSpaces input = input :=
  leads.opensExpression.bare

theorem power_reads (inner : ReadsExpressions expression depth) {value : Power}
    (canonical : value.canonical = true) (short : value.chars.length ≤ depth) :
    Reads (power expression) (Leads value.opensNegative) 2 value.chars value := by
  obtain ⟨operands⟩ := value
  have both : (!operands.isEmpty && signedsCanonical operands) = true := canonical
  have unfolded : Power.chars ⟨operands⟩ = joined (spaced "^") (signedsChars operands) := rfl
  rw [unfolded, signedsChars_eq] at short ⊢
  cases operands with
  | nil => simp at both
  | cons first others =>
    rw [Bool.and_eq_true, signedsCanonical_eq, List.all_eq_true] at both
    have each : ∀ operand ∈ first :: others,
        Reads (signed expression) (Leads operand.negative) 1 operand.chars operand :=
      fun operand isIn => signed_reads inner (both.2 operand isIn)
        (le_trans (length_le_joined (spaced "^") Signed.chars isIn) short)
    have reads : Reads (separated (spacing (char '^')) (signed expression))
        (Leads first.negative) 2 (joined (spaced "^") ((first :: others).map Signed.chars))
        (first :: others) :=
      separated_reads_joined marks_power (fun _ => trivial) each (fun _ _ leads => leads.bare)
        fun rest tail => rejects_of_ignoring (tail.reader_rejects .power (by decide))
    exact ⟨reads.opens, fun rest tail => bind_accepts (reads.accepts rest tail)⟩

theorem multiplication_reads (inner : ReadsExpressions expression depth) {value : Multiplication}
    (canonical : value.canonical = true) (short : value.chars.length ≤ depth) :
    Reads (multiplication expression) (Leads value.opensNegative) 3 value.chars value := by
  obtain ⟨first, steps⟩ := value
  have both : (first.canonical && multipliedCanonical steps) = true := canonical
  rw [Bool.and_eq_true, multipliedCanonical_eq, List.all_eq_true] at both
  have unfolded : Multiplication.chars ⟨first, steps⟩ = first.chars ++ multipliedChars steps := rfl
  rw [unfolded, multipliedChars_eq] at short ⊢
  rw [List.length_append] at short
  have each : ∀ step ∈ steps,
      Reads (power expression) (Leads step.2.opensNegative) 2 step.2.chars step.2 := by
    intro step isIn
    have bounded := length_le_steps (fun operator : MultiplicativeOperator => spaced operator.symbol)
      Power.chars isIn
    exact power_reads inner (both.2 step isIn) (by omega)
  have firstReads : Reads (power expression) (Leads first.opensNegative) 2 first.chars first :=
    power_reads inner both.1 (by omega)
  exact operated_reads Multiplication.mk .scale Power.chars
    (fun power => Leads power.opensNegative) (fun _ => rfl) marks_scale firstReads each
    (fun _ _ leads => leads.bare) (fun _ _ _ _ => trivial)
    fun rest tail => rejects_of_ignoring (tail.reader_rejects (.scale .times) (by decide))

theorem addition_reads (inner : ReadsExpressions expression depth) {value : Addition}
    (canonical : value.canonical = true) (short : value.chars.length ≤ depth) :
    Reads (addition expression) (fun input => ∃ negative, Leads negative input) 4 value.chars
      value := by
  obtain ⟨first, steps⟩ := value
  have both : (first.canonical && addedCanonical steps) = true := canonical
  rw [Bool.and_eq_true, addedCanonical_eq, List.all_eq_true] at both
  have unfolded : Addition.chars ⟨first, steps⟩ = first.chars ++ addedChars steps := rfl
  rw [unfolded, addedChars_eq] at short ⊢
  rw [List.length_append] at short
  have stepCanonical : ∀ step ∈ steps,
      (step.1 = .minus → step.2.opensNegative = false) ∧ step.2.canonical = true := by
    intro step isIn
    have canonical := both.2 step isIn
    rw [Bool.and_eq_true, Bool.not_eq_true', Bool.and_eq_false_imp, beq_iff_eq] at canonical
    exact canonical
  have each : ∀ step ∈ steps, Reads (multiplication expression) (Leads step.2.opensNegative) 3
      step.2.chars step.2 := by
    intro step isIn
    have bounded := length_le_steps (fun operator : AdditiveOperator => spaced operator.symbol)
      Multiplication.chars isIn
    exact multiplication_reads inner (stepCanonical step isIn).2 (by omega)
  -- Behind a minus the operand has no sign of its own, so the two make no arrow.
  have allowed : ∀ step ∈ steps, ∀ input, Leads step.2.opensNegative input →
      (Ending.add step.1).Allows input := by
    rintro ⟨operator, operand⟩ isIn input leads
    cases operator with
    | plus => exact trivial
    | minus =>
      rw [(stepCanonical _ isIn).1 rfl] at leads
      exact leads
  have firstReads : Reads (multiplication expression) (Leads first.opensNegative) 3 first.chars
      first := multiplication_reads inner both.1 (by omega)
  exact operated_reads Addition.mk .add Multiplication.chars
    (fun product => Leads product.opensNegative) (fun _ => rfl) marks_add
    (firstReads.weaken fun _ leads => ⟨first.opensNegative, leads⟩) each
    (fun _ _ leads => leads.bare) allowed
    fun rest tail => rejects_of_ignoring (tail.reader_rejects (.add .plus) (by decide))

/-! ## Comparisons -/

theorem opensExpression_not : OpensExpression ("NOT ".toList ++ rest) :=
  @opensExpression_word (' ' :: rest) "NOT" (by decide) (by decide) boundary_space ⟨_, rfl⟩

theorem negations_accept {negated : Bool} {input : List Char} (bare : dropSpaces input = input)
    (notNot : Rejects (keyword "NOT") input) :
    ∃ negations, many (spacing (keyword "NOT"))
        ((if negated then "NOT ".toList else []) ++ input) = .accept negations input ∧
      (negations.length % 2 == 1) = negated := by
  have stops : Rejects (spacing (keyword "NOT")) (dropSpaces input) := by
    rw [bare]
    exact spacing_rejects (by rwa [bare])
  cases negated with
  | true =>
    have each : ∀ value ∈ [()], ∀ more, True → True ∧ spacing (keyword "NOT")
        (dropSpaces ("NOT ".toList ++ more)) = .accept value (dropSpaces more) := by
      intro value _ more _
      have spaced : spacing (keyword "NOT") ("NOT".toList ++ ' ' :: more) =
          .accept () (dropSpaces more) := keyword_spaced fun _ => rfl
      exact ⟨trivial, spaced⟩
    have shown : ∀ value ∈ [()], 0 < visible "NOT ".toList := fun _ _ => by decide
    have read := (many_reads each shown trivial stops).2
    rw [bare] at read
    exact ⟨[()], read, rfl⟩
  | false =>
    rw [bare] at stops
    exact ⟨[], many_rejected stops, rfl⟩

theorem comparison_reads (inner : ReadsExpressions expression depth) {value : Comparison}
    (canonical : value.canonical = true) (short : value.chars.length ≤ depth) :
    Reads (comparison expression) OpensExpression 5 value.chars value := by
  obtain ⟨negated, left, steps⟩ := value
  have both : (left.canonical && comparedCanonical steps) = true := canonical
  rw [Bool.and_eq_true, comparedCanonical_eq, List.all_eq_true] at both
  have unfolded : Comparison.chars ⟨negated, left, steps⟩ =
    (if negated then "NOT ".toList else []) ++ left.chars ++ comparedChars steps := rfl
  rw [unfolded, comparedChars_eq, List.append_assoc] at short ⊢
  simp only [List.length_append] at short
  have each : ∀ step ∈ steps, Reads (addition expression)
      (fun input => ∃ negative, Leads negative input) 4 step.2.chars step.2 := by
    intro step isIn
    have bounded := length_le_steps (fun operator : ComparisonOperator => spaced operator.symbol)
      Addition.chars isIn
    exact addition_reads inner (both.2 step isIn) (by omega)
  have allowed : ∀ step ∈ steps, ∀ input, (∃ negative, Leads negative input) →
      (Ending.compare step.1).Allows input := by
    rintro ⟨operator, operand⟩ - input leads
    cases operator with
    | less => exact leads
    | _ => exact trivial
  have reads : ∀ negations : List Unit, Reads
      (do let left ← addition expression
          let steps ← many (step comparisonOperator (addition expression))
          return (⟨negations.length % 2 == 1, left, steps⟩ : Comparison))
      (fun input => ∃ negative, Leads negative input) 5
      (left.chars ++ steps.flatMap fun step => spaced step.1.symbol ++ step.2.chars)
      ⟨negations.length % 2 == 1, left, steps⟩ := fun negations =>
    operated_reads (Comparison.mk (negations.length % 2 == 1)) .compare Addition.chars
      (fun _ input => ∃ negative, Leads negative input) (fun _ => rfl) marks_compare
      (addition_reads inner both.1 (by omega)) each (fun _ _ ⟨_, leads⟩ => leads.bare) allowed
      fun rest tail => rejects_of_ignoring (tail.reader_rejects (.compare .equal) (by decide))
  constructor
  · intro rest tail
    obtain ⟨negative, leads⟩ := (reads []).opens rest tail
    cases negated with
    | true => exact opensExpression_not
    | false => exact leads.opensExpression
  · intro rest tail
    obtain ⟨negative, leads⟩ := (reads []).opens rest tail
    -- An odd number of `NOT` was written, and one is what is read.
    obtain ⟨negations, read, parity⟩ := @negations_accept negated _ leads.bare leads.notNot
    have compared := (reads negations).accepts rest tail
    rw [parity] at compared
    rw [List.append_assoc, comparison, bind_accepts read, parity]
    exact compared

/-! ## Connectives -/

/-- Operands joined by a keyword. -/
theorem connective_reads {α γ : Type} (make : List α → γ) (ending : Ending) {word : String}
    {item : Parser α} {text : α → List Char} {operands : List α}
    (isReader : ending.reader = keyword word)
    (shape : ∀ input, dropSpaces (ending.chars ++ input) = word.toList ++ ' ' :: input)
    (free : ∀ input, ending.Allows input) (some : (!operands.isEmpty) = true)
    (each : ∀ operand ∈ operands,
      Reads item OpensExpression ending.rank (text operand) operand) :
    Reads (do let operands ← separated (spacing (keyword word)) item; return make operands)
      OpensExpression (ending.rank + 1) (joined ending.chars (operands.map text))
      (make operands) := by
  cases operands with
  | nil => simp at some
  | cons first others =>
    have reads := separated_reads_joined (marks_keyword shape) free each
      (fun _ _ opens => opens.bare)
      fun rest tail => isReader ▸ tail.reader_rejects ending (Nat.lt_succ_self _)
    exact ⟨reads.opens, fun rest tail => bind_accepts (reads.accepts rest tail)⟩

theorem conjunction_reads (inner : ReadsExpressions expression depth) {value : Conjunction}
    (canonical : value.canonical = true) (short : value.chars.length ≤ depth) :
    Reads (conjunction expression) OpensExpression 6 value.chars value := by
  obtain ⟨operands⟩ := value
  have both : (!operands.isEmpty && comparisonsCanonical operands) = true := canonical
  have unfolded : Conjunction.chars ⟨operands⟩ =
    joined (spaced "AND") (comparisonsChars operands) := rfl
  rw [unfolded, comparisonsChars_eq] at short ⊢
  rw [Bool.and_eq_true, comparisonsCanonical_eq, List.all_eq_true] at both
  have each : ∀ operand ∈ operands,
      Reads (comparison expression) OpensExpression 5 operand.chars operand :=
    fun operand isIn => comparison_reads inner (both.2 operand isIn)
      (le_trans (length_le_joined (spaced "AND") Comparison.chars isIn) short)
  exact connective_reads Conjunction.mk .and rfl (fun _ => rfl) (fun _ => trivial) both.1 each

theorem exclusion_reads (inner : ReadsExpressions expression depth) {value : Exclusion}
    (canonical : value.canonical = true) (short : value.chars.length ≤ depth) :
    Reads (exclusion expression) OpensExpression 7 value.chars value := by
  obtain ⟨operands⟩ := value
  have both : (!operands.isEmpty && conjunctionsCanonical operands) = true := canonical
  have unfolded : Exclusion.chars ⟨operands⟩ =
    joined (spaced "XOR") (conjunctionsChars operands) := rfl
  rw [unfolded, conjunctionsChars_eq] at short ⊢
  rw [Bool.and_eq_true, conjunctionsCanonical_eq, List.all_eq_true] at both
  have each : ∀ operand ∈ operands,
      Reads (conjunction expression) OpensExpression 6 operand.chars operand :=
    fun operand isIn => conjunction_reads inner (both.2 operand isIn)
      (le_trans (length_le_joined (spaced "XOR") Conjunction.chars isIn) short)
  exact connective_reads Exclusion.mk .xor rfl (fun _ => rfl) (fun _ => trivial) both.1 each

theorem disjunction_reads (inner : ReadsExpressions expression depth) {value : Expression}
    (canonical : value.canonical = true) (short : value.chars.length ≤ depth) :
    Reads (disjunction expression) OpensExpression 8 value.chars value := by
  obtain ⟨operands⟩ := value
  have both : (!operands.isEmpty && exclusionsCanonical operands) = true := canonical
  have unfolded : Expression.chars ⟨operands⟩ =
    joined (spaced "OR") (exclusionsChars operands) := rfl
  rw [unfolded, exclusionsChars_eq] at short ⊢
  rw [Bool.and_eq_true, exclusionsCanonical_eq, List.all_eq_true] at both
  have each : ∀ operand ∈ operands,
      Reads (exclusion expression) OpensExpression 7 operand.chars operand :=
    fun operand isIn => exclusion_reads inner (both.2 operand isIn)
      (le_trans (length_le_joined (spaced "OR") Exclusion.chars isIn) short)
  exact connective_reads Expression.mk .or rfl (fun _ => rfl) (fun _ => trivial) both.1 each

/-! ## Expressions of any depth -/

theorem nested_reads : ∀ depth, ReadsExpressions (nested depth) depth
  | 0 => ⟨fun _ _ short => absurd short (Nat.not_lt_zero _), fun _ => ⟨_, rfl⟩⟩
  | depth + 1 =>
    ⟨fun _ canonical short =>
      disjunction_reads (nested_reads depth) canonical (Nat.le_of_lt_succ short),
      fun _ => ⟨_, rfl⟩⟩

/-- Every canonical expression is read back from its text. -/
theorem expression_reads {value : Expression} (canonical : value.canonical = true) :
    Reads Parser.expression OpensExpression 8 value.chars value := by
  have reads : ∀ rest, Reads (nested ((value.chars ++ rest).length + 1)) OpensExpression 8
      value.chars value := fun rest =>
    (nested_reads _).reads value canonical (by rw [List.length_append]; omega)
  exact ⟨fun rest tail => (reads rest).opens rest tail,
    fun rest tail => (reads rest).accepts rest tail⟩

end CypherSql.Cypher.Parser
