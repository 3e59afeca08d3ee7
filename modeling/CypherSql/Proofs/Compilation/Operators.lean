import CypherSql.Proofs.Compilation.Levels
import CypherSql.Proofs.Compilation.Progress
import CypherSql.Proofs.Sql.Readings
import CypherSql.Proofs.Sql.Regrouping

/-! # Operators of a comparison

SQL reads what a comparison compiles to in exactly one way.  The operators have the operands that
they have in Cypher unless a string test is an operand of a sign, of arithmetic, or on the right of
a comparison: SQL binds a test as loosely as a comparison, and no parentheses are written for it.

* `isAlias` — names that `WITH` gave to an expression.
* `compileComparison_denotes_iff` — the operators of what a comparison compiles to.
-/

namespace CypherSql.Compilation

open CypherSql.Cypher
open CypherSql.Graph (Slot)
open CypherSql.Sql (Binary Denotes Phrase Precedence Reads)

/-- A name of the graph is no alias, though `WITH` may have given it too. -/
def isAlias (graph : Graph) (bindings : Bindings) (name : String) : Bool :=
  (graph.slot? name).isNone && (bindings.find? name).isSome

/-- The lexicon of a query in which `WITH` gives no names. -/
def Lexicon.plain (settings : Settings) (graph : Graph) : Lexicon :=
  .meaning settings graph fun _ => none

variable {bindings : Bindings} {graph : Graph}

/-- Where no alias is used, it does not matter what aliases mean. -/
theorem names_plain {given : String → Option Written} (meanings : Meanings bindings given) :
    NamesRelated (fun _ => Bears fun level phrase => phrase.fits .cypher level = true)
      (fun name _ => !isAlias graph bindings name) (.meaning bindings.settings graph given)
      (.plain bindings.settings graph) := by
  refine names_bear grammatical_fits (fun _ _ => rfl) (fun _ => rfl) ?_
  intro _ name _ notAlias noSlot
  have notGiven : bindings.find? name = none := by
    simpa [isAlias, noSlot] using notAlias
  have represents := meanings.represents name
  rw [notGiven] at represents
  generalize given name = written at represents ⊢
  cases represents with
  | none => exact .none

/-- What names are written as without aliases fits everywhere. -/
theorem names_fit (settings : Settings) (graph : Graph) :
    NamesRelated (fun _ => Bears fun level phrase => phrase.fits .cypher level = true)
      (fun _ _ => true) (.plain settings graph) (.plain settings graph) :=
  names_bear grammatical_fits (fun _ _ => rfl) (fun _ => rfl) fun _ _ _ _ _ => .none

/-- A comparison without aliases compiles to what it is written as, and that fits in Cypher. -/
theorem compileComparison_plain (given : bindings.Given) {whole : Bool} {comparison : Comparison}
    {state : CompilerState} {compiled : Compiled}
    (aliasFree :
      comparison.everyMention (fun name _ => !isAlias state.graph bindings name) = true)
    (compiles : ((compileComparison bindings whole comparison).run.run state).1 = .ok compiled) :
    ∃ written, (Lexicon.plain bindings.settings state.graph).writeComparison whole comparison =
        some written ∧ Represents compiled written ∧
      written.phrase.fits .cypher (asked whole 3) = true := by
  obtain ⟨meaning, meanings⟩ := given.meanings
  have spells : Spells (.meaning bindings.settings state.graph meaning) state.graph bindings :=
    spells_meaning rfl meanings.represents
  have outcome := (compileComparison_writes spells whole comparison state rfl).1
  -- No alias occurs, so the meanings of aliases make no difference to what is written.
  have related := Lexicon.writeComparison_related grammatical_fits.congruent (names_plain meanings)
    whole comparison aliasFree
  rw [compiles] at outcome
  generalize Lexicon.writeComparison _ whole comparison = result at outcome related
  cases outcome with
  | @value _ written stands =>
    generalize Lexicon.writeComparison _ whole comparison = result at related ⊢
    cases related with
    | some bears =>
      obtain rfl := bears.same
      exact ⟨_, rfl, stands, bears.holds⟩

/-- SQL reads a phrase of Cypher with its own operators exactly where string tests stand apart. -/
theorem denotes_iff_testsStandApart {phrase : Phrase} {level : Nat} (positive : 1 ≤ level)
    (fit : phrase.fits .cypher level = true) :
    Denotes phrase.fragment phrase.tree ↔ phrase.testsStandApart = true := by
  rw [Phrase.denotes_tree_iff, Phrase.fits_sql_iff fit positive]
  exact and_iff_left fun _ => by decide

/-- SQL reads what a comparison compiles to in one way, with the operators of the comparison exactly
where string tests stand apart. -/
theorem compileComparison_denotes_iff (given : bindings.Given) {whole : Bool}
    {comparison : Comparison} {state : CompilerState} {compiled : Compiled}
    (aliasFree :
      comparison.everyMention (fun name _ => !isAlias state.graph bindings name) = true)
    (compiles : ((compileComparison bindings whole comparison).run.run state).1 = .ok compiled) :
    ∃ written, (Lexicon.plain bindings.settings state.graph).writeComparison whole comparison =
        some written ∧
      (∃ reading, ∀ other, Reads 1 compiled.operand other ↔ other = reading) ∧
      (Denotes compiled.operand written.phrase.tree ↔ written.phrase.testsStandApart = true) := by
  obtain ⟨written, isWritten, stands, fits⟩ :=
    compileComparison_plain given aliasFree compiles
  have reads : Reads (min (asked whole 3) 4) compiled.operand written.phrase.regroup := by
    rw [stands.operand]
    exact Phrase.regroup_reads fits
  have positive : 1 ≤ asked whole 3 := by cases whole <;> decide
  have reads : Reads 1 compiled.operand written.phrase.regroup :=
    ⟨Phrase.fits_mono (by omega) reads.fits, reads.written⟩
  refine ⟨written, isWritten, ⟨written.phrase.regroup, fun other => ⟨fun otherReads => ?_, ?_⟩⟩, ?_⟩
  · exact Reads.unique (Nat.le_refl 1) (Nat.le_refl 1) otherReads reads
  · rintro rfl
    exact reads
  · rw [stands.operand]
    exact denotes_iff_testsStandApart positive fits

/-! ## A test on the right of a comparison -/

def loneComparison? : Expression → Option Comparison
  | ⟨[⟨[⟨[comparison]⟩]⟩]⟩ => some comparison
  | _ => none

def comparedTestText : String :=
  "MATCH (a) WHERE false = a.value STARTS WITH 'x' RETURN a"

def comparedTest? (query : Query) : Option Comparison := do
  let clause ← query.matchClauses.head?
  loneComparison? (← clause.predicate)

def resultOf (computation : Compile Compiled) (graph : Graph) : Option Compiled :=
  (computation.run.run ⟨graph, 0⟩).1.toOption

/-- The comparison of that query uses no alias, compiles, and its test does not stand apart. -/
theorem comparedTestText_astray : ∃ query compiledQuery progress comparison compiled written,
    Query.parse comparedTestText = .ok query ∧ query.compile .standard = .ok compiledQuery ∧
      query.progress .standard = .ok progress ∧ comparedTest? query = some comparison ∧
      comparison.everyMention (fun name _ => !isAlias progress.graph ⟨.standard, []⟩ name) = true ∧
      ((compileComparison ⟨.standard, []⟩ true comparison).run.run ⟨progress.graph, 0⟩).1 =
        .ok compiled ∧
      (Lexicon.plain .standard progress.graph).writeComparison true comparison = some written ∧
      written.phrase.testsStandApart = false := by
  have evaluated : ((Query.parse comparedTestText).toOption.any fun query =>
      (query.compile .standard).toOption.any fun _ =>
        (query.progress .standard).toOption.any fun progress =>
          (comparedTest? query).any fun comparison =>
            comparison.everyMention (fun name _ => !isAlias progress.graph ⟨.standard, []⟩ name) &&
              (resultOf (compileComparison ⟨.standard, []⟩ true comparison)
                progress.graph).isSome &&
                ((Lexicon.plain .standard progress.graph).writeComparison true comparison).any
                  fun written => !written.phrase.testsStandApart) = true := by
    decide +kernel
  simp only [Option.any_eq_true, toOption_eq_some, resultOf, Bool.and_eq_true,
    Option.isSome_iff_exists, Bool.not_eq_true'] at evaluated
  obtain ⟨query, parsed, compiledQuery, compiles, progress, progressed, comparison, isOne,
    ⟨aliasFree, compiled, ran⟩, written, isWritten, astray⟩ := evaluated
  exact ⟨query, compiledQuery, progress, comparison, compiled, written, parsed, compiles,
    progressed, isOne, aliasFree, ran, isWritten, astray⟩

theorem compileComparison_denotes_iff_comparedTest : ∃ query progress comparison compiled written,
    Query.parse comparedTestText = .ok query ∧ query.progress .standard = .ok progress ∧
      comparedTest? query = some comparison ∧
      ((compileComparison ⟨.standard, []⟩ true comparison).run.run ⟨progress.graph, 0⟩).1 =
        .ok compiled ∧
      (Lexicon.plain .standard progress.graph).writeComparison true comparison = some written ∧
      (∃ reading, ∀ other, Reads 1 compiled.operand other ↔ other = reading) ∧
      (Denotes compiled.operand written.phrase.tree ↔ written.phrase.testsStandApart = true) := by
  obtain ⟨query, _, progress, comparison, compiled, _, parsed, _, progressed, isOne, aliasFree, ran,
    _, _⟩ := comparedTestText_astray
  obtain ⟨written, isWritten, reading, denotes⟩ :=
    compileComparison_denotes_iff (.none .standard) aliasFree ran
  exact ⟨query, progress, comparison, compiled, written, parsed, progressed, isOne, ran, isWritten,
    reading, denotes⟩

/-- SQL does not read that comparison with its own operators. -/
theorem not_denotes_comparedTest : ∃ query compiledQuery progress comparison compiled written,
    Query.parse comparedTestText = .ok query ∧ query.compile .standard = .ok compiledQuery ∧
      query.progress .standard = .ok progress ∧ comparedTest? query = some comparison ∧
      comparison.everyMention (fun name _ => !isAlias progress.graph ⟨.standard, []⟩ name) = true ∧
      ((compileComparison ⟨.standard, []⟩ true comparison).run.run ⟨progress.graph, 0⟩).1 =
        .ok compiled ∧
      (Lexicon.plain .standard progress.graph).writeComparison true comparison = some written ∧
      ¬ Denotes compiled.operand written.phrase.tree := by
  obtain ⟨query, compiledQuery, progress, comparison, compiled, written, parsed, compiles,
    progressed, isOne, aliasFree, ran, isWritten, astray⟩ := comparedTestText_astray
  refine ⟨query, compiledQuery, progress, comparison, compiled, written, parsed, compiles,
    progressed, isOne, aliasFree, ran, isWritten, fun denotes => ?_⟩
  obtain ⟨other, isOther, stands, fits⟩ := compileComparison_plain (.none .standard) aliasFree ran
  obtain rfl := Option.some.inj (isWritten.symm.trans isOther)
  rw [stands.operand, denotes_iff_testsStandApart (by decide) fits, astray] at denotes
  exact Bool.false_ne_true denotes

end CypherSql.Compilation
