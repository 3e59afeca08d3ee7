import CypherSql.Proofs.Compilation.Congruence

/-! # Writing an expression in the place of a name

An expression in which a name is replaced is written as the expression itself is in a lexicon that
gives the replacement, between parentheses, for the name.

* `Lexicon.replacing` — the lexicon that gives the replacement.
* `Lexicon.write_replace` — both are written alike.
-/

namespace CypherSql.Compilation

open CypherSql.Cypher

namespace Lexicon

variable (lexicon : Lexicon) (name : String) (replacement : Expression)

/-- The lexicon that gives `(replacement)` for the name. -/
def replacing : Lexicon where
  name? whole other path :=
    if other = name then lexicon.writeTerm whole ⟨.parenthesized replacement, path⟩
    else lexicon.name? whole other path
  test? := lexicon.test?

theorem stringOf?_replace (term : Term) :
    stringOf? (Term.replace name replacement term) = stringOf? term := by
  obtain ⟨atom, path⟩ := term
  cases atom with
  | name other =>
    by_cases same : other = name <;> simp [Term.replace, Atom.replace, same, stringOf?]
  | literal value => rfl
  | call | countAll | parenthesized | pattern => rfl

theorem writeTests_replace (subject : Written) : ∀ tests,
    writeTests subject (testedReplace name replacement tests) = writeTests subject tests
  | [] => rfl
  | [(operator, term)] => by
    rw [testedReplace, testedReplace, writeTests, writeTests, stringOf?_replace]
  | _ :: _ :: _ => rfl

theorem isEmpty_testedReplace (tests : List (StringOperator × Term)) :
    (testedReplace name replacement tests).isEmpty = tests.isEmpty := by
  cases tests <;> rfl

theorem isEmpty_comparedReplace (rest : List (ComparisonOperator × Addition)) :
    (comparedReplace name replacement rest).isEmpty = rest.isEmpty := by
  cases rest <;> rfl

theorem isEmpty_addedReplace (rest : List (AdditiveOperator × Multiplication)) :
    (addedReplace name replacement rest).isEmpty = rest.isEmpty := by
  cases rest <;> rfl

theorem isEmpty_multipliedReplace (rest : List (MultiplicativeOperator × Power)) :
    (multipliedReplace name replacement rest).isEmpty = rest.isEmpty := by
  cases rest <;> rfl

mutual

theorem write_replace : ∀ expression,
    lexicon.write (Expression.replace name replacement expression) =
      (lexicon.replacing name replacement).write expression
  | ⟨[]⟩ => rfl
  | ⟨[only]⟩ => writeExclusion_replace true only
  | ⟨first :: second :: rest⟩ => by
    have ofFirst := writeExclusion_replace false first
    have ofRest := writeExclusions_replace (second :: rest)
    rw [exclusionsReplace] at ofRest
    rw [Expression.replace, exclusionsReplace, exclusionsReplace, write, write, ofFirst, ofRest]

theorem writeExclusions_replace : ∀ operands,
    lexicon.writeExclusions (exclusionsReplace name replacement operands) =
      (lexicon.replacing name replacement).writeExclusions operands
  | [] => rfl
  | operand :: rest => by
    rw [exclusionsReplace, writeExclusions, writeExclusions, writeExclusion_replace false operand,
      writeExclusions_replace rest]

theorem writeExclusion_replace (whole : Bool) : ∀ operand,
    lexicon.writeExclusion whole (Exclusion.replace name replacement operand) =
      (lexicon.replacing name replacement).writeExclusion whole operand
  | ⟨[]⟩ => rfl
  | ⟨[only]⟩ => writeConjunction_replace whole only
  | ⟨_ :: _ :: _⟩ => rfl

theorem writeConjunction_replace (whole : Bool) : ∀ operand,
    lexicon.writeConjunction whole (Conjunction.replace name replacement operand) =
      (lexicon.replacing name replacement).writeConjunction whole operand
  | ⟨[]⟩ => rfl
  | ⟨[only]⟩ => writeComparison_replace whole only
  | ⟨first :: second :: rest⟩ => by
    have ofFirst := writeComparison_replace false first
    have ofRest := writeComparisons_replace (second :: rest)
    rw [comparisonsReplace] at ofRest
    rw [Conjunction.replace, comparisonsReplace, comparisonsReplace, writeConjunction,
      writeConjunction, ofFirst, ofRest]

theorem writeComparisons_replace : ∀ operands,
    lexicon.writeComparisons (comparisonsReplace name replacement operands) =
      (lexicon.replacing name replacement).writeComparisons operands
  | [] => rfl
  | operand :: rest => by
    rw [comparisonsReplace, writeComparisons, writeComparisons,
      writeComparison_replace false operand, writeComparisons_replace rest]

theorem writeComparison_replace (whole : Bool) : ∀ operand,
    lexicon.writeComparison whole (Comparison.replace name replacement operand) =
      (lexicon.replacing name replacement).writeComparison whole operand
  | ⟨negated, left, rest⟩ => by
    rw [Comparison.replace, writeComparison, writeComparison, isEmpty_comparedReplace,
      writeAddition_replace _ left]
    simp only [writeCompared_replace _ rest]

theorem writeCompared_replace (first : Written) : ∀ rest,
    lexicon.writeCompared first (comparedReplace name replacement rest) =
      (lexicon.replacing name replacement).writeCompared first rest
  | [] => rfl
  | [(operator, right)] => by
    rw [comparedReplace, comparedReplace, writeCompared, writeCompared,
      writeAddition_replace false right]
  | _ :: _ :: _ => rfl

theorem writeAddition_replace (whole : Bool) : ∀ operand,
    lexicon.writeAddition whole (Addition.replace name replacement operand) =
      (lexicon.replacing name replacement).writeAddition whole operand
  | ⟨first, rest⟩ => by
    rw [Addition.replace, writeAddition, writeAddition, isEmpty_addedReplace,
      writeMultiplication_replace _ first, writeAdded_replace rest]

theorem writeAdded_replace : ∀ rest,
    lexicon.writeAdded (addedReplace name replacement rest) =
      (lexicon.replacing name replacement).writeAdded rest
  | [] => rfl
  | (operator, operand) :: rest => by
    rw [addedReplace, writeAdded, writeAdded, writeMultiplication_replace false operand,
      writeAdded_replace rest]

theorem writeMultiplication_replace (whole : Bool) : ∀ operand,
    lexicon.writeMultiplication whole (Multiplication.replace name replacement operand) =
      (lexicon.replacing name replacement).writeMultiplication whole operand
  | ⟨first, rest⟩ => by
    rw [Multiplication.replace, writeMultiplication, writeMultiplication,
      isEmpty_multipliedReplace, writePower_replace _ first, writeMultiplied_replace rest]

theorem writeMultiplied_replace : ∀ rest,
    lexicon.writeMultiplied (multipliedReplace name replacement rest) =
      (lexicon.replacing name replacement).writeMultiplied rest
  | [] => rfl
  | (operator, operand) :: rest => by
    rw [multipliedReplace, writeMultiplied, writeMultiplied, writePower_replace false operand,
      writeMultiplied_replace rest]

theorem writePower_replace (whole : Bool) : ∀ operand,
    lexicon.writePower whole (Power.replace name replacement operand) =
      (lexicon.replacing name replacement).writePower whole operand
  | ⟨[]⟩ => rfl
  | ⟨[only]⟩ => writeSigned_replace whole only
  | ⟨first :: second :: rest⟩ => by
    have ofFirst := writeSigned_replace false first
    have ofRest := writeSigneds_replace (second :: rest)
    rw [signedsReplace] at ofRest
    rw [Power.replace, signedsReplace, signedsReplace, writePower, writePower, ofFirst, ofRest]

theorem writeSigneds_replace : ∀ operands,
    lexicon.writeSigneds (signedsReplace name replacement operands) =
      (lexicon.replacing name replacement).writeSigneds operands
  | [] => rfl
  | operand :: rest => by
    rw [signedsReplace, writeSigneds, writeSigneds, writeSigned_replace false operand,
      writeSigneds_replace rest]

theorem writeSigned_replace (whole : Bool) : ∀ operand,
    lexicon.writeSigned whole (Signed.replace name replacement operand) =
      (lexicon.replacing name replacement).writeSigned whole operand
  | ⟨negative, term, tests⟩ => by
    rw [Signed.replace, writeSigned, writeSigned, isEmpty_testedReplace,
      writeTerm_replace _ term]
    simp only [writeTests_replace]

theorem writeTerm_replace (whole : Bool) : ∀ term,
    lexicon.writeTerm whole (Term.replace name replacement term) =
      (lexicon.replacing name replacement).writeTerm whole term
  | ⟨.name other, path⟩ => by
    rw [Term.replace, Atom.replace]
    by_cases same : other = name
    · rw [if_pos same]
      exact (if_pos same).symm
    · rw [if_neg same]
      exact (if_neg same).symm
  | ⟨.literal value, path⟩ => by
    rw [Term.replace, Atom.replace, writeTerm, writeTerm]
    rfl
  | ⟨.call function distinct arguments, path⟩ => by
    have inside := writeAtom_replace whole (.call function distinct arguments) nofun
    rw [Atom.replace] at inside
    rw [Term.replace, Atom.replace, writeTerm, writeTerm, inside]
  | ⟨.countAll, path⟩ => by
    rw [Term.replace, Atom.replace, writeTerm, writeTerm]
    rfl
  | ⟨.parenthesized inner, path⟩ => by
    have inside := writeAtom_replace whole (.parenthesized inner) nofun
    rw [Atom.replace] at inside
    rw [Term.replace, Atom.replace, writeTerm, writeTerm, inside]
  | ⟨.pattern pattern, path⟩ => by
    rw [Term.replace, Atom.replace, writeTerm, writeTerm]
    rfl

theorem writeAtom_replace (whole : Bool) : ∀ atom, (∀ other, atom ≠ .name other) →
    lexicon.writeAtom whole (Atom.replace name replacement atom) =
      (lexicon.replacing name replacement).writeAtom whole atom
  | .name other, noName => absurd rfl (noName other)
  | .literal _, _ => rfl
  | .call function distinct arguments, _ => by
    rw [Atom.replace, writeAtom, writeAtom, writeCount_replace distinct arguments]
  | .countAll, _ => rfl
  | .parenthesized inner, _ => by
    rw [Atom.replace, writeAtom, writeAtom, write_replace inner]
  | .pattern _, _ => rfl

theorem writeCount_replace (distinct : Bool) : ∀ arguments,
    lexicon.writeCount distinct (argumentsReplace name replacement arguments) =
      (lexicon.replacing name replacement).writeCount distinct arguments
  | [argument] => by
    rw [argumentsReplace, argumentsReplace, writeCount, writeCount, write_replace argument]
  | [] => rfl
  | _ :: _ :: _ => rfl

end

end Lexicon

end CypherSql.Compilation
