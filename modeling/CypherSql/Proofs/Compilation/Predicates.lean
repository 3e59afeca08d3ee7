import CypherSql.Proofs.Compilation.Formulas

/-! # Predicates in the filter of a query

Where `WITH` gives no names, every predicate of a query becomes one fragment of its filter, and this
fragment is a conjunct: among any others it holds in the same cases as the formula that was written.

* `compile_conjunct` — how the conjunct of a predicate is read.
* `progress_becomes` — the fragments of all predicates, in the order of the clauses.
* `Query.predicates_conjoin` — what the filter of a query makes of its predicates.
-/

namespace CypherSql

open CypherSql.Cypher
open CypherSql.Sql (Fragment Phrase Reads)

namespace Compilation

/-! ## One predicate -/

/-- Whether what a comparison compiles to holds. -/
def comparisonHolds (settings : Settings) (state : CompilerState) (holds : Fragment → Bool)
    (comparison : Comparison) : Bool :=
  match ((compileComparison ⟨settings, []⟩ false comparison).run.run state).1 with
  | .ok compiled => holds compiled.operand
  | .error _ => false

theorem spells_plain (settings : Settings) (graph : Graph) :
    Spells (.plain settings graph) graph ⟨settings, []⟩ :=
  spells_meaning rfl (meanings_none settings).represents

theorem comparisonHolds_eq (settings : Settings) (state : CompilerState)
    (holds : Fragment → Bool) :
    comparisonHolds settings state holds =
      Lexicon.atomHolds holds (.plain settings state.graph) := by
  funext comparison
  have outcome := (compileComparison_writes (spells_plain settings state.graph) false comparison
    state rfl).1
  unfold comparisonHolds Lexicon.atomHolds
  generalize ((compileComparison ⟨settings, []⟩ false comparison).run.run state).1 = result,
    Lexicon.writeComparison _ false comparison = written at outcome ⊢
  cases outcome with
  | value stands => simp [stands.operand]
  | failure => rfl

/-- What is no disjunction binds as tightly as `AND`. -/
theorem fits_two {phrase : Phrase} (fit : phrase.fits .cypher 1 = true)
    (other : isDisjunction phrase = false) : phrase.fits .cypher 2 = true := by
  cases phrase with
  | operand | group | count | power => exact fit
  | unary operator inner =>
    have above : 2 ≤ operator.level := by cases operator <;> decide
    exact Phrase.fits_unary.mpr ⟨above, (Phrase.fits_unary.mp fit).2⟩
  | binary operator left right =>
    have above : 2 ≤ Sql.Precedence.cypher operator := by
      cases operator with
      | or => contradiction
      | and | like => decide
      | compare | add | multiply =>
        simp [Sql.Precedence.cypher, Sql.Binary.lexeme, Sql.Lexeme.level]
    exact Phrase.fits_binary.mpr ⟨above, (Phrase.fits_binary.mp fit).2⟩

/-- The conjunct of a phrase: the phrase, between parentheses if it is a disjunction. -/
theorem conjunct_reads {compiled : Compiled} {written : Written}
    (stands : Represents compiled written) (value : compiled.slot = none)
    (fit : written.phrase.fits .cypher 1 = true) :
    ∃ own, Reads 2 compiled.conjunct own ∧
      ∀ holds, own.truth holds = written.phrase.truth holds := by
  have isSql := stands.operand
  rw [operand_of_slot_none value] at isSql
  unfold Compiled.conjunct
  rw [isSql, stands.disjunctive]
  cases disjunction : isDisjunction written.phrase with
  | true =>
    have reads := Phrase.regroup_reads fit
    exact ⟨.group written.phrase.regroup,
      ⟨reads.fits, congrArg Fragment.parenthesized reads.written⟩,
      fun _ => Phrase.truth_regroup fit⟩
  | false =>
    exact ⟨written.phrase.regroup, Phrase.regroup_reads (fits_two fit disjunction),
      fun _ => Phrase.truth_regroup fit⟩

/-- A predicate that is a single value becomes a conjunct that holds when its formula does. -/
theorem compile_conjunct {settings : Settings} {predicate : Expression} {state : CompilerState}
    {compiled : Compiled}
    (compiles : ((compile ⟨settings, []⟩ predicate).run.run state).1 = .ok compiled)
    (value : compiled.slot = none) :
    ∃ own, Reads 2 compiled.conjunct own ∧
      ∀ holds, own.truth holds = predicate.truth (comparisonHolds settings state holds) := by
  have outcome := (compile_writes (spells_plain settings state.graph) predicate state rfl).1
  have related := Lexicon.write_related grammatical_fits.congruent (names_fit settings state.graph)
    predicate (predicate.everyMention_of_all fun _ _ => rfl)
  rw [compiles] at outcome
  generalize isWritten : (Lexicon.plain settings state.graph).write predicate = result
    at outcome related
  cases outcome with
  | @value _ written stands =>
    cases related with
    | some bears =>
      obtain ⟨own, reads, same⟩ := conjunct_reads stands value bears.holds
      refine ⟨own, reads, fun holds => ?_⟩
      rw [same, comparisonHolds_eq, Lexicon.write_truth predicate written isWritten]

/-! ## The predicates of all clauses -/

/-- What an expression compiles to somewhere in a query without aliases, as a conjunct. -/
def Becomes (settings : Settings) (predicate : Expression) (fragment : Fragment) : Prop :=
  ∃ state compiled, ((compile ⟨settings, []⟩ predicate).run.run state).1 = .ok compiled ∧
    fragment = compiled.conjunct

/-- Clauses that give no names and add a fragment for each of the predicates. -/
def Adds (settings : Settings) (predicates : List Expression) (before after : Progress) : Prop :=
  before.bindings = ⟨settings, []⟩ →
    after.bindings = ⟨settings, []⟩ ∧
      ∃ fragments, after.predicates.fragments = before.predicates.fragments ++ fragments ∧
        List.Forall₂ (Becomes settings) predicates fragments

variable {settings : Settings}

theorem Adds.nil (progress : Progress) : Adds settings [] progress progress :=
  fun same => ⟨same, [], (List.append_nil _).symm, .nil⟩

theorem Adds.append (first second : List Expression) (a b c : Progress)
    (addsFirst : Adds settings first a b) (addsSecond : Adds settings second b c) :
    Adds settings (first ++ second) a c := by
  intro same
  obtain ⟨sameFirst, fragments, areFirst, become⟩ := addsFirst same
  obtain ⟨sameSecond, others, areSecond, becomeOthers⟩ := addsSecond sameFirst
  refine ⟨sameSecond, fragments ++ others, ?_, List.rel_append become becomeOthers⟩
  rw [areSecond, areFirst, List.append_assoc]

/-- A predicate that compiles adds its conjunct. -/
theorem Adds.of_compile {before next : Progress} {predicate : Expression} {compiled : Compiled}
    (compiles : before.compile predicate = .ok (compiled, next)) :
    Adds settings [predicate] before
      { next with predicates := next.predicates.add compiled } := by
  obtain ⟨state, ran, rfl⟩ := Progress.compile_run compiles
  intro same
  rw [same] at ran
  refine ⟨same, [compiled.conjunct], rfl, .cons ⟨_, compiled, congrArg Prod.fst ran, rfl⟩ .nil⟩

theorem Progress.filter_adds {before after : Progress} {predicate : Option Expression}
    (filtered : before.filter predicate = .ok after) :
    Adds settings predicate.toList before after := by
  cases predicate with
  | none =>
    obtain rfl := Except.ok.inj filtered
    exact .nil before
  | some predicate =>
    obtain ⟨⟨compiled, next⟩, compiles, result⟩ := bind_eq_ok.mp filtered
    obtain rfl := pure_eq_ok.mp result
    exact .of_compile compiles

theorem Progress.filterPassed_adds {before after : Progress} {predicate : Option Expression}
    (filtered : before.filterPassed predicate = .ok after) :
    Adds settings predicate.toList before after := by
  cases predicate with
  | none =>
    obtain rfl := Except.ok.inj filtered
    exact .nil before
  | some predicate =>
    obtain ⟨⟨compiled, next⟩, compiles, result⟩ := bind_eq_ok.mp filtered
    dsimp only at result
    split at result
    · contradiction
    · obtain rfl := pure_eq_ok.mp result
      exact .of_compile compiles

theorem Progress.addMatch_adds {before after : Progress} {clause : MatchClause}
    (added : before.addMatch clause = .ok after) :
    Adds settings clause.predicate.toList before after := by
  obtain ⟨graph, _, filtered⟩ := bind_eq_ok.mp added
  have adds : Adds settings _ { before with graph } after := Progress.filter_adds filtered
  exact adds

/-- An item of `WITH` without a name passes a variable on. -/
theorem Progress.addItem_adds {before after : Progress} {item : ProjectionItem}
    (unnamed : item.name = none) (added : before.addItem item = .ok after) :
    Adds settings [] before after := by
  obtain ⟨⟨compiled, next⟩, compiles, result⟩ := bind_eq_ok.mp added
  obtain ⟨-, sameBindings, samePredicates⟩ := Progress.compile_ok compiles
  simp only [unnamed] at result
  split at result
  · obtain rfl := pure_eq_ok.mp result
    intro same
    exact ⟨sameBindings.trans same, [], by rw [samePredicates, List.append_nil], .nil⟩
  · contradiction

theorem Progress.addWith_adds {before after : Progress} {clause : WithClause}
    (unnamed : ∀ item ∈ clause.items, item.name = none)
    (added : before.addWith clause = .ok after) :
    Adds settings clause.predicate.toList before after := by
  obtain ⟨next, items, filtered⟩ := bind_eq_ok.mp added
  have itemsAdd : Adds settings (clause.items.flatMap fun _ => []) before next :=
    foldlM_collects Adds.nil Adds.append
      (fun item isItem _ _ added => Progress.addItem_adds (unnamed item isItem) added) items
  have none : clause.items.flatMap (fun _ => ([] : List Expression)) = [] := by simp
  rw [none] at itemsAdd
  exact itemsAdd.append _ _ _ _ _ (Progress.filterPassed_adds filtered)

end Compilation

open Compilation

/-! ## Whole queries -/

/-- The predicates of a query, in the order in which they take effect. -/
def Cypher.Query.predicates (query : Query) : List Expression :=
  query.matchClauses.flatMap (·.predicate.toList) ++
    query.withClauses.flatMap (·.predicate.toList)

/-- No item of `WITH` gives a name. -/
def Cypher.Query.namesNothing (query : Query) : Bool :=
  query.withClauses.all fun clause => clause.items.all fun item => item.name.isNone

theorem Cypher.Query.progress_becomes {settings : Settings} {query : Query} {progress : Progress}
    (unnamed : query.namesNothing = true) (progressed : query.progress settings = .ok progress) :
    List.Forall₂ (Becomes settings) query.predicates progress.predicates.fragments := by
  simp only [namesNothing, List.all_eq_true, Option.isNone_iff_eq_none] at unnamed
  obtain ⟨matched, matches', passed⟩ := bind_eq_ok.mp progressed
  have first : Adds settings (query.matchClauses.flatMap (·.predicate.toList)) (.start settings)
      matched :=
    foldlM_collects Adds.nil Adds.append (fun _ _ _ _ added => Progress.addMatch_adds added)
      matches'
  have second : Adds settings (query.withClauses.flatMap (·.predicate.toList)) matched progress :=
    foldlM_collects Adds.nil Adds.append
      (fun clause isClause _ _ added => Progress.addWith_adds (unnamed clause isClause) added)
      passed
  -- No name is given at the start, and no clause gives one.
  obtain ⟨_, fragments, areFragments, become⟩ := first.append _ _ _ _ _ second rfl
  rwa [areFragments]

/-- A fragment is read as one conjunct, wherever it stands among others, and it holds when a
formula does. -/
def Compilation.ConjunctFor (formula : (Fragment → Bool) → Bool) (fragment : Fragment) : Prop :=
  ∃ own, Reads 2 fragment own ∧ (∀ holds, own.truth holds = formula holds) ∧
    ∀ before after : List Phrase,
      (∀ other ∈ before ++ after, other.fits .sql 2 = true) →
      ∃ reading,
        (∀ other, Reads 1 (.joined .and (before.map Phrase.fragment ++
          fragment :: after.map Phrase.fragment)) other ↔ other = reading) ∧
        ∀ holds, reading.truth holds = ((before.all fun other => other.truth holds) &&
          formula holds && after.all fun other => other.truth holds)

/-- The fragment that a predicate compiles to is a conjunct for its formula, unless the predicate is
a whole slot. -/
def Compilation.Conjoins (settings : Settings) (predicate : Expression) (fragment : Fragment) :
    Prop :=
  ∃ state compiled, ((compile ⟨settings, []⟩ predicate).run.run state).1 = .ok compiled ∧
    fragment = compiled.conjunct ∧
    (compiled.slot = none →
      ConjunctFor (fun holds => predicate.truth (comparisonHolds settings state holds)) fragment)

/-- In a query without aliases every predicate that is no whole slot becomes one conjunct of the
filter, which holds among any others when the formula of the predicate does. -/
theorem Cypher.Query.predicates_conjoin {settings : Settings} {query : Query}
    {compiledQuery : CompiledQuery} (unnamed : query.namesNothing = true)
    (compiles : query.compile settings = .ok compiledQuery) :
    ∃ selection projections graph predicates,
      query.selection settings = .ok (selection, projections) ∧
      selection.condition = filterOf settings graph predicates ∧
      List.Forall₂ (Conjoins settings) query.predicates predicates.fragments := by
  obtain ⟨⟨selection, projections⟩, selected, _⟩ := bind_eq_ok.mp compiles
  obtain ⟨progress, layout, final, page, progressed, _, laid, _, rfl, rfl⟩ :=
    Query.selection_ok selected
  refine ⟨_, _, final.graph, final.predicates, selected, rfl, ?_⟩
  rw [(layoutItems_ok laid).2]
  refine (query.progress_becomes unnamed progressed).imp fun predicate fragment becomes => ?_
  obtain ⟨state, compiled, ran, rfl⟩ := becomes
  refine ⟨state, compiled, ran, rfl, fun value => ?_⟩
  obtain ⟨own, reads, same⟩ := compile_conjunct ran value
  refine ⟨own, reads, same, fun before after fit => ?_⟩
  obtain ⟨reading, only, holdsAll⟩ := Sql.reads_among reads fit
  exact ⟨reading, only, fun holds => by rw [holdsAll, same]⟩

def Compilation.nestedFormulaText : String :=
  "MATCH (a) WHERE (a.value = 'x' OR NOT (a.type = 'ip' AND a.value = 'y')) RETURN a"

theorem Cypher.Query.predicates_conjoin_nestedFormula :
    ∃ query compiledQuery, Query.parse nestedFormulaText = .ok query ∧
      query.compile .standard = .ok compiledQuery ∧ query.namesNothing = true ∧
      ∃ selection projections graph predicates,
        query.selection .standard = .ok (selection, projections) ∧
        selection.condition = filterOf .standard graph predicates ∧
        List.Forall₂ (Conjoins .standard) query.predicates predicates.fragments := by
  have evaluated : ((Query.parse nestedFormulaText).toOption.any fun query =>
      query.namesNothing && (query.compile .standard).toOption.isSome) = true := by
    decide +kernel
  simp only [Option.any_eq_true, toOption_eq_some, Bool.and_eq_true, Option.isSome_iff_exists]
    at evaluated
  obtain ⟨query, parsed, unnamed, compiledQuery, compiles⟩ := evaluated
  exact ⟨query, compiledQuery, parsed, compiles, unnamed,
    query.predicates_conjoin unnamed compiles⟩

end CypherSql
