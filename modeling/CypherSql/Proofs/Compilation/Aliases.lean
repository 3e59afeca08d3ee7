import CypherSql.Proofs.Compilation.Filling
import CypherSql.Proofs.Compilation.Predicates

/-! # Aliases inside larger expressions

What `WITH` gives to a name is put into larger expressions as it is, without parentheses.  So the
name means what the expression means between parentheses exactly where the expression binds as
tightly as each place of the name asks.

* `compile_fillsBoth` — a larger expression with the name and with the expression compiles to one
  shape with its places filled.
* `Keeps` — how SQL reads the two.
* `compile_alias_denotes_iff` — when a name keeps the meaning of its expression.
-/

namespace CypherSql.Compilation

open CypherSql.Cypher
open CypherSql.Sql (Denotes Fragment Lexeme Phrase Precedence Reads)

/-! ## What is compiled -/

/-- An expression of which only the slot and whether it aggregates is known.  Its SQL is a place. -/
def Compiled.blank (compiled : Compiled) : Compiled :=
  { Compiled.scalar [.place] with slot := compiled.slot, aggregates := compiled.aggregates }

def Compiled.between (compiled : Compiled) : Fragment :=
  if compiled.slot.isSome then compiled.operand else compiled.operand.parenthesized

/-- The bindings differ in a name only, which one of them gives to an expression. -/
structure Named (bindings : Bindings) (name : String) (meant : Compiled) (named : Bindings) :
    Prop where
  settings : named.settings = bindings.settings
  found : named.find? name = some meant
  others : ∀ other, name ≠ other → named.find? other = bindings.find? other

theorem named_bind (bindings : Bindings) (name : String) (meant : Compiled) :
    Named bindings name meant (bindings.bind name meant) where
  settings := rfl
  found := by simp [Bindings.find?_bind]
  others other different := by simp [Bindings.find?_bind, different]

theorem Named.represents {bindings named : Bindings} {name : String} {meant : Compiled}
    (isNamed : Named bindings name meant named) {given : String → Option Written}
    (each : ∀ other, Option.Rel Represents (bindings.find? other) (given other))
    {written : Written} (stands : Represents meant written) (other : String) :
    Option.Rel Represents (named.find? other) (withName name written given other) := by
  unfold withName
  split
  · next same =>
    rw [← same, isNamed.found]
    exact .some stands
  · next different =>
    rw [isNamed.others other different]
    exact each other

theorem Named.spells {bindings named : Bindings} {name : String} {meant : Compiled}
    (isNamed : Named bindings name meant named) {given : String → Option Written}
    (each : ∀ other, Option.Rel Represents (bindings.find? other) (given other))
    {written : Written} (stands : Represents meant written) (graph : Graph) :
    Spells (.meaning bindings.settings graph (withName name written given)) graph named :=
  spells_meaning isNamed.settings (isNamed.represents each stands)

theorem Represents.blank {compiled : Compiled} {written : Written}
    (stands : Represents compiled written) : Represents compiled.blank written.blank where
  operand := by cases slot : compiled.slot <;> simp [Compiled.operand, Compiled.blank, slot] <;> rfl
  slot := stands.slot
  aggregates := stands.aggregates
  disjunctive := rfl

theorem Represents.between {compiled : Compiled} {written : Written}
    (stands : Represents compiled written) : compiled.between = written.between.fragment := by
  unfold Compiled.between Written.between
  rw [stands.slot, stands.operand]
  split <;> rfl

/-- The SQL of an alias goes into the places as it is, and the SQL of its expression between
parentheses. -/
structure Spliced (meant blank compiled replaced : Compiled) : Prop where
  asItIs : compiled.operand = blank.operand.fill meant.operand meant.operand true
  enclosed : replaced.operand = blank.operand.fill meant.operand meant.between true
  slot : replaced.slot = compiled.slot
  disjunctive : replaced.disjunctive = compiled.disjunctive

theorem isDisjunction_fill (value enclosed phrase : Phrase) :
    isDisjunction (phrase.fill value enclosed true) =
      isDisjunction (phrase.fill value value true) := by
  cases phrase with
  | operand | group | count | power | unary => rfl
  | binary operator left right => cases operator <;> rfl

/-- What is compiled with an alias, and with its expression, fills the places of one shape. -/
structure FillsBoth (written blankWritten : Written) (compiled replaced : Compiled) : Prop where
  asItIs : ∃ filled, Represents compiled filled ∧
    Filled written.phrase written.phrase true blankWritten filled
  enclosed : ∃ filled, Represents replaced filled ∧
    Filled written.phrase written.between true blankWritten filled

theorem FillsBoth.spliced {meant blank compiled replaced : Compiled}
    {written blankWritten : Written} (fills : FillsBoth written blankWritten compiled replaced)
    (ofMeant : Represents meant written) (ofBlank : Represents blank blankWritten) :
    Spliced meant blank compiled replaced := by
  obtain ⟨⟨filled, stands, asItIs⟩, ⟨filled', stands', enclosed⟩⟩ := fills
  refine ⟨?_, ?_, ?_, ?_⟩
  · rw [stands.operand, asItIs.phrase, Phrase.fragment_fill, ofBlank.operand, ofMeant.operand]
  · rw [stands'.operand, enclosed.phrase, Phrase.fragment_fill, ofBlank.operand, ofMeant.operand,
      ofMeant.between]
  · rw [stands'.slot, enclosed.slot, stands.slot, asItIs.slot]
  · rw [stands'.disjunctive, enclosed.phrase, isDisjunction_fill, ← asItIs.phrase,
      stands.disjunctive]

section

variable {bindings named : Bindings} {name : String} {expression larger : Expression}
  {before state state' : CompilerState} {meant : Compiled} {given : String → Option Written}
  {written : Written}

/-- A larger expression compiles with a name exactly where it compiles with the expression of the
name, and both fill the places of what it compiles to with a place for the name. -/
theorem compile_fillsBoth (meanings : Meanings bindings given)
    (writes : (Lexicon.meaning bindings.settings before.graph given).write expression =
      some written)
    (stands : Represents meant written) (noSlot : before.graph.slot? name = none)
    (isNamed : Named bindings name meant named) (isBare : larger.everyMention (bare name) = true)
    (same : state.graph.unscoped = before.graph.unscoped)
    (same' : state'.graph.unscoped = before.graph.unscoped) :
    Option.Rel
      (fun compiled replaced => ∃ blank blankWritten,
        ((compile (bindings.bind name meant.blank) larger).run.run state).1 = .ok blank ∧
        (Lexicon.meaning bindings.settings before.graph
          (withName name written.blank given)).write larger = some blankWritten ∧
        Represents blank blankWritten ∧ FillsBoth written blankWritten compiled replaced)
      ((compile named larger).run.run state).1.toOption
      ((compile bindings
        (Expression.replace name expression larger)).run.run state').1.toOption := by
  have fresh := meanings.fresh ""
  -- One shape is filled in two ways, and each of the three computations writes its own phrase.
  have asItIs := Lexicon.write_related congruent_filled
    (names_asItIs bindings.settings written fresh noSlot) larger isBare
  have enclosed := Lexicon.write_related congruent_filled (names_enclosed fresh noSlot writes)
    larger isBare
  rw [← Lexicon.write_replace] at enclosed
  have ofBlank := (compile_writes ((named_bind bindings name meant.blank).spells
    meanings.represents stands.blank before.graph) larger state same).1
  have ofNamed := (compile_writes (isNamed.spells meanings.represents stands before.graph)
    larger state same).1
  have ofReplaced := (compile_writes (spells_meaning rfl meanings.represents)
    (Expression.replace name expression larger) state' same').1
  generalize Lexicon.write _ larger = blankWritten at asItIs enclosed ofBlank ⊢
  generalize Lexicon.write _ larger = filled at asItIs ofNamed
  generalize (Lexicon.meaning bindings.settings before.graph given).write
    (Expression.replace name expression larger) = filled' at enclosed ofReplaced
  generalize ((compile named larger).run.run state).1 = result at ofNamed ⊢
  generalize ((compile bindings
    (Expression.replace name expression larger)).run.run state').1 = result' at ofReplaced ⊢
  -- Either all three are written and give values, or none of them.
  cases asItIs with
  | none =>
    cases enclosed with
    | none =>
      cases ofNamed with
      | failure =>
        cases ofReplaced with
        | failure => exact .none
  | some asItIs =>
    cases enclosed with
    | some enclosed =>
      generalize ((compile (bindings.bind name meant.blank) larger).run.run state).1 = blankResult
        at ofBlank ⊢
      cases ofBlank with
      | value ofBlank =>
        cases ofNamed with
        | value ofNamed =>
          cases ofReplaced with
          | value ofReplaced =>
            exact .some
              ⟨_, _, rfl, rfl, ofBlank, ⟨_, ofNamed, asItIs⟩, ⟨_, ofReplaced, enclosed⟩⟩

end

/-! ## How it is read -/

/-- SQL reads what is compiled as one conjunct of a filter. -/
def IsConjunct (compiled : Compiled) : Prop :=
  ∃ reading, Reads 2 compiled.conjunct reading

/-- SQL always reads an expression that stands between parentheses in the places of a shape.  As it
is it has the same operators exactly where the shape admits it, and then it is a conjunct in the
same cases. -/
structure Keeps (shape value : Phrase) (compiled replaced : Compiled) : Prop where
  operators : ∃ tree, Denotes replaced.operand tree ∧
    (Denotes compiled.operand tree ↔ shape.Admits value)
  conjunct : shape.Admits value → compiled.slot = none →
    (IsConjunct compiled ↔ IsConjunct replaced)

theorem exists_reads_iff {level : Nat} (positive : 1 ≤ level) {fragment : Fragment}
    {phrase : Phrase} (reads : Reads 1 fragment phrase) :
    (∃ reading, Reads level fragment reading) ↔ phrase.fits .sql level = true := by
  constructor
  · rintro ⟨reading, other⟩
    obtain rfl := reads.unique (Nat.le_refl 1) positive other
    exact other.fits
  · exact fun fits => ⟨phrase, fits, reads.written⟩

/-- Of two phrases that differ in places behind an operator, both bind as tightly. -/
theorem fits_fill_level {value enclosed shape : Phrase}
    (fit : (shape.fill value value true).fits .sql 1 = true)
    (fit' : (shape.fill value enclosed true).fits .sql 1 = true) (level : Nat) :
    (shape.fill value value true).fits .sql level = true ↔
      (shape.fill value enclosed true).fits .sql level = true := by
  -- What an operator reaches does not depend on its operands.
  cases shape with
  | operand lexeme stands => exact Iff.rfl
  | group | count | power => exact iff_of_true fit fit'
  | unary operator inner =>
    have inside := (Phrase.fits_unary.mp fit).2
    have inside' := (Phrase.fits_unary.mp fit').2
    simp only [Phrase.fill, Phrase.fits_unary, inside, inside']
  | binary operator left right =>
    have inside := (Phrase.fits_binary.mp fit).2
    have inside' := (Phrase.fits_binary.mp fit').2
    simp only [Phrase.fill, Phrase.fits_binary, inside, inside']

theorem conjunct_congr {first second : Compiled} {phrase phrase' : Phrase}
    (noSlot : first.slot = none) (noSlot' : second.slot = none)
    (same : second.disjunctive = first.disjunctive) (reads : Reads 1 first.operand phrase)
    (reads' : Reads 1 second.operand phrase')
    (level : phrase.fits .sql 2 = true ↔ phrase'.fits .sql 2 = true) :
    IsConjunct first ↔ IsConjunct second := by
  rw [operand_of_slot_none noSlot] at reads
  rw [operand_of_slot_none noSlot'] at reads'
  unfold IsConjunct Compiled.conjunct
  rw [same]
  -- A disjunction is put between parentheses, which makes a conjunct of anything.
  cases first.disjunctive with
  | true =>
    have enclosed : ∀ {fragment : Fragment} {phrase : Phrase}, Reads 1 fragment phrase →
        ∃ reading, Reads 2 fragment.parenthesized reading := fun reads =>
      ⟨.group _, reads.fits, congrArg Fragment.parenthesized reads.written⟩
    exact iff_of_true (enclosed reads) (enclosed reads')
  | false =>
    simp only [Bool.false_eq_true, if_false]
    rw [exists_reads_iff (by decide) reads, exists_reads_iff (by decide) reads', level]

theorem Spliced.keeps {meant blank compiled replaced : Compiled}
    (spliced : Spliced meant blank compiled replaced) (laid : Laid meant) {shape value : Phrase}
    (ofBlank : Reads 1 blank.operand shape) (ofMeant : Reads 1 meant.operand value) :
    Keeps shape value compiled replaced := by
  -- A slot is one lexeme, so it needs no parentheses.
  obtain ⟨enclosed, written, sameTree, fitsAll⟩ : ∃ enclosed : Phrase,
      enclosed.fragment = meant.between ∧ enclosed.tree = value.tree ∧
        ∀ level, enclosed.fits .sql level = true := by
    unfold Compiled.between
    cases isSlot : meant.slot with
    | none =>
      exact ⟨.group value, congrArg Fragment.parenthesized ofMeant.written, rfl,
        fun _ => ofMeant.fits⟩
    | some slot =>
      rw [laid.operand isSlot] at ofMeant ⊢
      have alone : Reads 1 [.field (.outer slot) ["id"]]
          (.operand (.field (.outer slot) ["id"]) rfl) := ⟨rfl, rfl⟩
      obtain rfl := ofMeant.unique (Nat.le_refl 1) (Nat.le_refl 1) alone
      exact ⟨_, rfl, rfl, fun _ => rfl⟩
  have isCompiled : (shape.fill value value true).fragment = compiled.operand := by
    rw [Phrase.fragment_fill, ofBlank.written, ofMeant.written, spliced.asItIs]
  have isReplaced : (shape.fill value enclosed true).fragment = replaced.operand := by
    rw [Phrase.fragment_fill, ofBlank.written, ofMeant.written, written, spliced.enclosed]
  have fits : (shape.fill value enclosed true).fits .sql 1 = true := by
    rw [Phrase.fits_fill_enclosed ofMeant.fits fitsAll shape fun _ => rfl]
    exact ofBlank.fits
  have admits : (shape.fill value value true).fits .sql 1 = true ↔ shape.Admits value := by
    rw [Phrase.fits_fill_iff]
    exact and_iff_right ofBlank.fits
  refine ⟨⟨(shape.fill value enclosed true).tree, ⟨_, ⟨fits, isReplaced⟩, rfl⟩, ?_⟩, ?_⟩
  · rw [← isCompiled, Phrase.tree_fill sameTree, Phrase.denotes_tree_iff, admits]
  · intro isAdmitted noSlot
    have fitsAsItIs := admits.mpr isAdmitted
    exact conjunct_congr noSlot (spliced.slot.trans noSlot) spliced.disjunctive
      ⟨fitsAsItIs, isCompiled⟩ ⟨fits, isReplaced⟩ (fits_fill_level fitsAsItIs fits 2)

/-! ## Larger expressions -/

section

variable {bindings named : Bindings} {name : String} {given : String → Option Written}
  {written : Written} {expression larger : Expression} {before state state' : CompilerState}
  {meant : Compiled}

/-- Where no other alias is used, a place for the name fits everywhere. -/
theorem names_blank_fit (meanings : Meanings bindings given) (graph : Graph) (written : Written) :
    NamesRelated (fun _ => Bears fun level phrase => phrase.fits .cypher level = true)
      (fun other _ => other == name || !isAlias graph bindings other)
      (.meaning bindings.settings graph (withName name written.blank given))
      (.meaning bindings.settings graph (withName name written.blank given)) := by
  refine names_bear grammatical_fits (fun _ _ => rfl) (fun _ => rfl) ?_
  intro _ other _ isAllowed noSlot
  unfold withName
  split
  · exact .some ⟨rfl, rfl, fun _ => rfl⟩
  · next different =>
    have notGiven : bindings.find? other = none := by
      simpa [isAlias, noSlot, Ne.symm different] using isAllowed
    have represents := meanings.represents other
    rw [notGiven] at represents
    generalize given other = found at represents ⊢
    cases represents with
    | none => exact .none

theorem fits_of_nine {phrase : Phrase} (fit : phrase.fits .cypher 9 = true) (level : Nat) :
    phrase.fits .cypher level = true := by
  cases phrase with
  | operand | group | count | power => exact fit
  | unary operator inner =>
    have reach := (Phrase.fits_unary.mp fit).1
    cases operator <;> exact absurd reach (by decide)
  | binary operator left right =>
    have reach := (Phrase.fits_binary.mp fit).1
    cases operator <;>
      simp [Precedence.cypher, Sql.Binary.lexeme, Lexeme.level] at reach

theorem between_fits (fit : written.phrase.fits .cypher 1 = true)
    (slot : written.slot.isSome = true → written.phrase.fits .cypher 9 = true) (level : Nat) :
    written.between.fits .cypher level = true := by
  unfold Written.between
  split
  · next isSlot => exact fits_of_nine (slot isSlot) level
  · exact fit

/-- Where everything fits, SQL reads the shape and the value, and a conjunct with the expression
between parentheses. -/
theorem FillsBoth.readings {blank compiled replaced : Compiled} {blankWritten : Written}
    (fills : FillsBoth written blankWritten compiled replaced) (ofMeant : Represents meant written)
    (ofBlank : Represents blank blankWritten) (fit : written.phrase.fits .cypher 1 = true)
    (slot : written.slot.isSome = true → written.phrase.fits .cypher 9 = true)
    (blankFit : blankWritten.phrase.fits .cypher 1 = true) :
    Reads 1 blank.operand blankWritten.phrase.regroup ∧
      Reads 1 meant.operand written.phrase.regroup ∧
      (compiled.slot = none → IsConjunct replaced) := by
  refine ⟨?_, ?_, fun noSlot => ?_⟩
  · rw [ofBlank.operand]
    exact Phrase.regroup_reads blankFit
  · rw [ofMeant.operand]
    exact Phrase.regroup_reads fit
  · have sameSlot := (fills.spliced ofMeant ofBlank).slot
    obtain ⟨-, filled, stands, enclosed⟩ := fills
    have fits : filled.phrase.fits .cypher 1 = true := by
      rw [enclosed.phrase, Phrase.fits_fill_enclosed fit (between_fits fit slot) _ fun _ => rfl]
      exact blankFit
    obtain ⟨own, reads, -⟩ := conjunct_reads stands (sameSlot.trans noSlot) fits
    exact ⟨own, reads⟩

/-- An expression without aliases is written as something that fits in Cypher. -/
theorem write_fits (meanings : Meanings bindings given) {graph : Graph}
    (aliasFree : expression.everyMention (fun other _ => !isAlias graph bindings other) = true)
    (writes : (Lexicon.meaning bindings.settings graph given).write expression = some written) :
    written.phrase.fits .cypher 1 = true ∧
      (written.slot.isSome = true → written.phrase.fits .cypher 9 = true) := by
  have related := Lexicon.write_related grammatical_fits.congruent (names_plain meanings)
    expression aliasFree
  rw [writes] at related
  generalize (Lexicon.plain bindings.settings graph).write expression = other at related
  cases related with
  | some bears => exact ⟨bears.holds, bears.slot⟩

/-- What is compiled with a name keeps the meaning that the expression of the name has between
parentheses, as far as the shape of the larger expression admits the expression.  SQL reads the
shape and the expression at least where no other alias is used. -/
def KeepsWhereAdmitted (bindings : Bindings) (state : CompilerState) (name : String)
    (expression larger : Expression) (meant compiled replaced : Compiled) : Prop :=
  ∃ blank, ((compile (bindings.bind name meant.blank) larger).run.run state).1 = .ok blank ∧
    (∀ shape value, Reads 1 blank.operand shape → Reads 1 meant.operand value →
      Keeps shape value compiled replaced) ∧
    (expression.everyMention (fun other _ => !isAlias state.graph bindings other) = true →
      larger.everyMention
        (fun other _ => other == name || !isAlias state.graph bindings other) = true →
      ∃ shape value, Reads 1 blank.operand shape ∧ Reads 1 meant.operand value ∧
        (compiled.slot = none → IsConjunct replaced))

theorem isAlias_congr {graph graph' : Graph} (same : graph'.unscoped = graph.unscoped) :
    isAlias graph' bindings = isAlias graph bindings := by
  funext name
  rw [isAlias, isAlias, Graph.slot?_eq_of_unscoped same]

/-- A larger expression compiles with a name exactly where it compiles with the expression of the
name between parentheses.  SQL reads both with the same operators exactly where the expression binds
as tightly as each place of the name asks, and then both are conjuncts in the same cases. -/
theorem compile_alias_denotes_iff (given : bindings.Given)
    (compiles : ((compile bindings expression).run.run before).1 = .ok meant)
    (noSlot : before.graph.slot? name = none) (isNamed : Named bindings name meant named)
    (isBare : larger.everyMention (bare name) = true)
    (same : state.graph.unscoped = before.graph.unscoped)
    (same' : state'.graph.unscoped = before.graph.unscoped) :
    Option.Rel (KeepsWhereAdmitted bindings state name expression larger meant)
      ((compile named larger).run.run state).1.toOption
      ((compile bindings
        (Expression.replace name expression larger)).run.run state').1.toOption := by
  have laid : Laid meant := compile_holds (given.made (made_laid bindings.settings)) compiles
  obtain ⟨meaning, meanings⟩ := given.meanings
  have outcome := (compile_writes (spells_meaning rfl meanings.represents) expression before rfl).1
  rw [compiles] at outcome
  generalize writes : (Lexicon.meaning bindings.settings before.graph meaning).write expression =
    result at outcome
  cases outcome with
  | @value _ written ofMeant =>
    refine rel_imp ?_
      (compile_fillsBoth meanings writes ofMeant noSlot isNamed isBare same same')
    rintro compiled replaced ⟨blank, blankWritten, isBlank, blankWrites, ofBlank, fills⟩
    refine ⟨blank, isBlank, fun shape value readsBlank readsMeant =>
      (fills.spliced ofMeant ofBlank).keeps laid readsBlank readsMeant, ?_⟩
    rw [isAlias_congr same]
    intro aliasFree largerAliasFree
    obtain ⟨fit, slot⟩ := write_fits meanings aliasFree writes
    have related := Lexicon.write_related grammatical_fits.congruent
      (names_blank_fit meanings before.graph written) larger largerAliasFree
    rw [blankWrites] at related
    cases related with
    | some bears =>
      exact ⟨_, _, fills.readings ofMeant ofBlank fit slot bears.holds⟩

end

/-! ## A disjunction in the place of a name -/

def hitText : String :=
  "MATCH (a) WITH a, a.value = 'x' OR a.value = 'y' AS hit WHERE hit AND a.type = 'ip' RETURN a"

/-- The first name that `WITH` gives, with its expression, and the predicate that follows. -/
def givenName? (query : Query) : Option (String × Expression × Expression) := do
  let clause ← query.withClauses.head?
  let item ← clause.items.find? fun item => item.name.isSome
  return (← item.name, item.expression, ← clause.predicate)

/-- The name of that query is none of the graph, its expression compiles, and the predicate uses it
as it is.  The place of the name does not admit the expression, whose `OR` comes to stand outside of
all parentheses. -/
theorem hitText_astray :
    ∃ query compiledQuery progress name expression larger meant compiled written blankWritten,
      Query.parse hitText = .ok query ∧ query.compile .standard = .ok compiledQuery ∧
      query.progress .standard = .ok progress ∧
      givenName? query = some (name, expression, larger) ∧
      progress.graph.slot? name = none ∧ larger.everyMention (bare name) = true ∧
      ((compile ⟨.standard, []⟩ expression).run.run ⟨progress.graph, 0⟩).1 = .ok meant ∧
      ((compile (Bindings.bind ⟨.standard, []⟩ name meant) larger).run.run
        ⟨progress.graph, 0⟩).1 = .ok compiled ∧
      (Lexicon.plain .standard progress.graph).write expression = some written ∧
      (Lexicon.meaning .standard progress.graph
        (withName name written.blank fun _ => none)).write larger = some blankWritten ∧
      compiled.slot = none ∧ written.slot = none ∧ written.phrase.fits .cypher 1 = true ∧
      blankWritten.phrase.fits .cypher 1 = true ∧
      ((blankWritten.phrase.regroup.demands 1).all fun level =>
        written.phrase.regroup.fits .sql level) = false ∧
      ((compiled.conjunct.outside 0).any fun lexeme => lexeme.level == 1) = true := by
  have evaluated : ((Query.parse hitText).toOption.any fun query =>
      (query.compile .standard).toOption.any fun _ =>
        (query.progress .standard).toOption.any fun progress =>
          (givenName? query).any fun (name, expression, larger) =>
            (progress.graph.slot? name).isNone && larger.everyMention (bare name) &&
              (resultOf (compile ⟨.standard, []⟩ expression) progress.graph).any fun meant =>
                (resultOf (compile (Bindings.bind ⟨.standard, []⟩ name meant) larger)
                  progress.graph).any fun compiled =>
                  ((Lexicon.plain .standard progress.graph).write expression).any fun written =>
                    ((Lexicon.meaning .standard progress.graph
                      (withName name written.blank fun _ => none)).write larger).any
                      fun blankWritten =>
                        compiled.slot.isNone && written.slot.isNone &&
                          written.phrase.fits .cypher 1 && blankWritten.phrase.fits .cypher 1 &&
                          (!(blankWritten.phrase.regroup.demands 1).all fun level =>
                            written.phrase.regroup.fits .sql level) &&
                          (compiled.conjunct.outside 0).any fun lexeme => lexeme.level == 1) =
      true := by
    decide +kernel
  simp only [Option.any_eq_true, toOption_eq_some, resultOf, Bool.and_eq_true,
    Option.isNone_iff_eq_none, Bool.not_eq_true'] at evaluated
  obtain ⟨query, parsed, compiledQuery, compiles, progress, progressed, ⟨name, expression, larger⟩,
    isGiven, ⟨noSlot, isBare⟩, meant, isMeant, compiled, ran, written, writes, blankWritten,
    blankWrites, ⟨⟨⟨⟨noSlot', noSlot''⟩, fit⟩, blankFit⟩, astray⟩, exposed⟩ := evaluated
  exact ⟨query, compiledQuery, progress, name, expression, larger, meant, compiled, written,
    blankWritten, parsed, compiles, progressed, isGiven, noSlot, isBare, isMeant, ran, writes,
    blankWrites, noSlot', noSlot'', fit, blankFit, astray, exposed⟩

theorem compile_alias_denotes_iff_hit :
    ∃ query progress name expression larger meant compiled replaced,
      Query.parse hitText = .ok query ∧ query.progress .standard = .ok progress ∧
      givenName? query = some (name, expression, larger) ∧
      ((compile ⟨.standard, []⟩ expression).run.run ⟨progress.graph, 0⟩).1 = .ok meant ∧
      ((compile (Bindings.bind ⟨.standard, []⟩ name meant) larger).run.run
        ⟨progress.graph, 0⟩).1 = .ok compiled ∧
      ((compile ⟨.standard, []⟩ (Expression.replace name expression larger)).run.run
        ⟨progress.graph, 0⟩).1 = .ok replaced ∧
      KeepsWhereAdmitted ⟨.standard, []⟩ ⟨progress.graph, 0⟩ name expression larger meant compiled
        replaced := by
  obtain ⟨query, _, progress, name, expression, larger, meant, compiled, _, _, parsed, _,
    progressed, isGiven, noSlot, isBare, isMeant, ran, _⟩ := hitText_astray
  have related := compile_alias_denotes_iff (.none .standard) isMeant noSlot
    (named_bind _ name meant) isBare rfl rfl
  rw [ran] at related
  generalize isReplaced : ((compile ⟨.standard, []⟩
    (Expression.replace name expression larger)).run.run ⟨progress.graph, 0⟩).1.toOption = result
    at related
  cases related with
  | some keeps =>
    exact ⟨query, progress, name, expression, larger, meant, compiled, _, parsed, progressed,
      isGiven, isMeant, ran, toOption_eq_some.mp isReplaced, keeps⟩

/-- SQL does not read that predicate with its own operators, and not as one conjunct, as it does
with the expression between parentheses. -/
theorem not_denotes_hit :
    ∃ query compiledQuery progress name expression larger meant compiled replaced,
      Query.parse hitText = .ok query ∧ query.compile .standard = .ok compiledQuery ∧
      query.progress .standard = .ok progress ∧
      givenName? query = some (name, expression, larger) ∧
      progress.graph.slot? name = none ∧ larger.everyMention (bare name) = true ∧
      ((compile ⟨.standard, []⟩ expression).run.run ⟨progress.graph, 0⟩).1 = .ok meant ∧
      ((compile (Bindings.bind ⟨.standard, []⟩ name meant) larger).run.run
        ⟨progress.graph, 0⟩).1 = .ok compiled ∧
      ((compile ⟨.standard, []⟩ (Expression.replace name expression larger)).run.run
        ⟨progress.graph, 0⟩).1 = .ok replaced ∧
      (∃ tree, Denotes replaced.operand tree ∧ ¬ Denotes compiled.operand tree) ∧
      IsConjunct replaced ∧ ¬ IsConjunct compiled := by
  obtain ⟨query, compiledQuery, progress, name, expression, larger, meant, compiled, written,
    blankWritten, parsed, compiles, progressed, isGiven, noSlot, isBare, isMeant, ran, writes,
    blankWrites, noSlot', noSlot'', fit, blankFit, astray, exposed⟩ := hitText_astray
  have outcome := (compile_writes (spells_plain .standard progress.graph) expression
    ⟨progress.graph, 0⟩ rfl).1
  rw [isMeant, writes] at outcome
  obtain ⟨ofMeant⟩ := outcome
  have writesIn : (Lexicon.meaning .standard (CompilerState.mk progress.graph 0).graph
      fun _ => none).write expression = some written := writes
  have filled := compile_fillsBoth (meanings_none .standard) writesIn ofMeant noSlot
    (named_bind _ name meant) isBare rfl rfl
  rw [ran] at filled
  generalize isReplaced : ((compile ⟨.standard, []⟩
    (Expression.replace name expression larger)).run.run ⟨progress.graph, 0⟩).1.toOption = result
    at filled
  cases filled with
  | @some _ replaced found =>
    obtain ⟨blank, other, _, blankWrites', ofBlank, fills⟩ := found
    obtain rfl := Option.some.inj (blankWrites.symm.trans blankWrites')
    obtain ⟨readsBlank, readsMeant, conjunct⟩ :=
      fills.readings ofMeant ofBlank fit (by simp [noSlot'']) blankFit
    have laid : Laid meant := compile_holds (made_laid .standard) isMeant
    obtain ⟨tree, denotes, admits⟩ :=
      ((fills.spliced ofMeant ofBlank).keeps laid readsBlank readsMeant).operators
    refine ⟨query, compiledQuery, progress, name, expression, larger, meant, compiled, replaced,
      parsed, compiles, progressed, isGiven, noSlot, isBare, isMeant, ran,
      toOption_eq_some.mp isReplaced, ⟨tree, denotes, fun same => ?_⟩, conjunct noSlot', ?_⟩
    · have all := List.all_eq_true.mpr (admits.mp same)
      exact Bool.false_ne_true (astray.symm.trans all)
    · -- The `OR` stands outside of all parentheses.
      rintro ⟨reading, fits, isWritten⟩
      obtain ⟨lexeme, isOne, level⟩ := List.any_eq_true.mp exposed
      rw [← isWritten] at isOne
      have isLoose : lexeme.level = 1 := by simpa using level
      have tight := Phrase.level_le_of_mem_outside fits isOne (by omega)
      omega

end CypherSql.Compilation
