import Mathlib.Data.List.Chain
import Mathlib.Data.List.DropRight
import CypherSql.Cypher.Parser.Query

/-! # Where reading fails

What a parser leaves unread is a part of the input at its end, and so is what a failure shows of
it.  A construct that is reported around a failure began at or before the place where the failure
is, so the places of a failure lie one inside the other.

* `ParseError.PointsInto` — the places of a failure lie in the input, from the inside outwards.
* `Outcome.Within`, `Orderly` — what every parser keeps to, whatever its input.
* `Orderly.bind`, `Orderly.orElse`, …, `Orderly.many` — the combinators keep to it.
* `query_orderly`, `expression_orderly` — the grammar keeps to it, parser by parser.
* `parse_reported` — what is reported on a whole text.
-/

namespace CypherSql.Cypher

/-! ## Places of failures -/

namespace ParseError

/-- Every entry shows an end of the input, and shows no more of it than the next entry does. -/
structure PointsInto (error : ParseError) (input : List Char) : Prop where
  nonempty : error.entries ≠ []
  inside : ∀ entry ∈ error.entries, entry.rest <:+ input
  outwards : error.entries.IsChain fun inner outer => inner.rest <:+ outer.rest

variable {error : ParseError} {input rest : List Char}

theorem PointsInto.of_suffix (points : error.PointsInto rest) (ends : rest <:+ input) :
    error.PointsInto input :=
  ⟨points.nonempty, fun entry member => (points.inside entry member).trans ends, points.outwards⟩

theorem pointsInto_here {context : Context} : (here rest context).PointsInto rest where
  nonempty := List.cons_ne_nil _ _
  inside := by
    intro entry member
    obtain rfl := List.mem_singleton.mp member
    exact List.suffix_rfl
  outwards := .singleton _

/-- A construct that is reported around a failure began where the input did. -/
theorem PointsInto.within (points : error.PointsInto input) {context : Context} :
    (error.within input context).PointsInto input where
  nonempty := List.append_ne_nil_of_right_ne_nil _ (List.cons_ne_nil _ _)
  inside := by
    intro entry member
    obtain member | member := List.mem_append.mp member
    · exact points.inside entry member
    · obtain rfl := List.mem_singleton.mp member
      exact List.suffix_rfl
  outwards := by
    refine List.isChain_append.mpr ⟨points.outwards, .singleton _, ?_⟩
    intro last isLast outer isOuter
    obtain rfl : ⟨input, context⟩ = outer := Option.some.inj isOuter
    exact points.inside last (List.mem_of_mem_getLast? isLast)

end ParseError

/-- What is left lies in the input, and so does what is reported. -/
def Outcome.Within {α : Type} (input : List Char) : Outcome α → Prop
  | accept _ rest => rest <:+ input
  | reject error => error.PointsInto input
  | abort error => error.PointsInto input

theorem Outcome.Within.of_suffix {α : Type} {outcome : Outcome α} {input rest : List Char}
    (within : outcome.Within rest) (ends : rest <:+ input) : outcome.Within input := by
  cases outcome with
  | accept value left => exact List.IsSuffix.trans within ends
  | reject error => exact ParseError.PointsInto.of_suffix within ends
  | abort error => exact ParseError.PointsInto.of_suffix within ends

namespace Parser

/-- Whatever the input, the outcome lies in it. -/
def Orderly {α : Type} (parser : Parser α) : Prop :=
  ∀ input, (parser input).Within input

/-! ## Combinators -/

namespace Orderly

section

variable {α β : Type} {parser first second : Parser α} {input rest : List Char} {value : α}
  {error : ParseError}

theorem within (orderly : Orderly parser) {outcome : Outcome α} (isOne : parser input = outcome) :
    outcome.Within input := by
  rw [← isOne]
  exact orderly input

theorem accepts (orderly : Orderly parser) (read : parser input = .accept value rest) :
    rest <:+ input :=
  orderly.within read

theorem rejects (orderly : Orderly parser) (failed : parser input = .reject error) :
    error.PointsInto input :=
  orderly.within failed

theorem aborts (orderly : Orderly parser) (failed : parser input = .abort error) :
    error.PointsInto input :=
  orderly.within failed

theorem pure : Orderly (pure value : Parser α) :=
  fun _ => List.suffix_rfl

theorem unexpected : Orderly (unexpected : Parser α) :=
  fun _ => ParseError.pointsInto_here

theorem bind {next : α → Parser β} (isFirst : Orderly first)
    (isNext : ∀ value, Orderly (next value)) : Orderly (first >>= next) := by
  intro input
  show (andThen first next input).Within input
  unfold andThen
  cases outcome : first input with
  | accept value rest => exact (isNext value rest).of_suffix (isFirst.accepts outcome)
  | reject error => exact isFirst.rejects outcome
  | abort error => exact isFirst.aborts outcome

theorem orElse (isFirst : Orderly first) (isSecond : Orderly second) :
    Orderly (orElse first second) := by
  intro input
  unfold Parser.orElse
  split
  -- What the first one reported is dropped, and the second one starts over.
  · exact isSecond input
  · exact isFirst input

theorem oneOf {others : List (Parser α)} {last : Parser α}
    (areOthers : ∀ other ∈ others, Orderly other) (isLast : Orderly last) :
    Orderly (oneOf others last) := by
  induction others with
  | nil => exact isLast
  | cons first others ih =>
    obtain ⟨isFirst, areOthers⟩ := List.forall_mem_cons.mp areOthers
    exact isFirst.orElse (ih areOthers)

theorem optional (orderly : Orderly parser) : Orderly (optional parser) := by
  intro input
  unfold Parser.optional
  cases outcome : parser input with
  | accept value rest => exact orderly.accepts outcome
  | reject error => exact List.suffix_rfl
  | abort error => exact orderly.aborts outcome

theorem commit (orderly : Orderly parser) : Orderly (commit parser) := by
  intro input
  unfold Parser.commit
  split
  next error failed => exact orderly.rejects failed
  next => exact orderly input

theorem inContext {context : Context} (orderly : Orderly parser) :
    Orderly (inContext context parser) := by
  intro input
  unfold Parser.inContext
  cases outcome : parser input with
  | accept value rest => exact orderly.accepts outcome
  | reject error => exact (orderly.rejects outcome).within
  | abort error => exact (orderly.aborts outcome).within

theorem satisfying {test : α → Bool} (orderly : Orderly parser) :
    Orderly (satisfying test parser) := by
  intro input
  unfold Parser.satisfying
  cases outcome : parser input with
  | accept value rest =>
    show Outcome.Within input (if test value then _ else _)
    split
    · exact orderly.accepts outcome
    · exact ParseError.pointsInto_here
  | reject error => exact orderly.rejects outcome
  | abort error => exact orderly.aborts outcome

theorem manyUpTo (orderly : Orderly parser) (fuel : Nat) : Orderly (manyUpTo fuel parser) := by
  induction fuel with
  | zero => exact fun _ => List.suffix_rfl
  | succ fuel ih =>
    intro input
    unfold Parser.manyUpTo
    cases outcome : parser input with
    | accept value rest =>
      have isRest := orderly.accepts outcome
      dsimp only
      cases others : Parser.manyUpTo fuel parser rest with
      | accept values final => exact (ih.accepts others).trans isRest
      | reject error => exact (ih.rejects others).of_suffix isRest
      | abort error => exact (ih.aborts others).of_suffix isRest
    -- An item that is rejected leaves the input as it was.
    | reject error => exact List.suffix_rfl
    | abort error => exact orderly.aborts outcome

theorem many (orderly : Orderly parser) : Orderly (many parser) :=
  fun input => orderly.manyUpTo (input.length + 1) input

theorem separated {separator : Parser β} (isSeparator : Orderly separator)
    (isItem : Orderly parser) : Orderly (separated separator parser) :=
  .bind isItem fun _ => .bind (isSeparator.bind fun _ => isItem).many fun _ => .pure

theorem separatedOrNone {separator : Parser β} (isSeparator : Orderly separator)
    (isItem : Orderly parser) : Orderly (separatedOrNone separator parser) :=
  .orElse (.separated isSeparator isItem) .pure

end

end Orderly

/-! ## Words, names and constants -/

section

variable {α : Type}

theorem charOf_orderly (test : Char → Bool) : Orderly (charOf test) := by
  intro input
  cases input with
  | nil => exact ParseError.pointsInto_here
  | cons c rest =>
    rw [charOf]
    split
    · exact List.suffix_cons c rest
    · exact ParseError.pointsInto_here

theorem char_orderly (c : Char) : Orderly (char c) :=
  charOf_orderly (· == c)

theorem charsOf_orderly (test : Char → Bool) : Orderly (charsOf test) :=
  fun _ => List.dropWhile_suffix test

theorem someCharsOf_orderly (test : Char → Bool) : Orderly (someCharsOf test) := by
  intro input
  unfold someCharsOf
  split
  · exact ParseError.pointsInto_here
  · exact List.dropWhile_suffix test

theorem restBehind_suffix {word input rest : List Char}
    (behind : restBehind word input = some rest) : rest <:+ input := by
  fun_induction restBehind word input with
  | case1 input => exact Option.some.inj behind ▸ List.suffix_rfl
  | case2 c word d input same ih => exact (ih behind).trans (List.suffix_cons d input)
  | case3 => exact nomatch behind
  | case4 => exact nomatch behind

theorem token_orderly (word : String) : Orderly (token word) := by
  intro input
  unfold token
  split
  next rest behind => exact restBehind_suffix behind
  next => exact ParseError.pointsInto_here

theorem dropBytes_suffix (count : Nat) (text : List Char) : dropBytes count text <:+ text := by
  fun_induction dropBytes count text with
  | case1 text => exact List.suffix_rfl
  | case2 => exact List.suffix_rfl
  | case3 count c rest ih => exact ih.trans (List.suffix_cons c rest)

/-- A name that only begins with the word fails behind the word. -/
theorem keyword_orderly (word : String) : Orderly (keyword word) := by
  intro input
  have isRest := dropBytes_suffix (byteLength word.toList) input
  unfold keyword
  split
  · simp only
    split
    · split
      · exact ParseError.pointsInto_here.of_suffix isRest
      · exact isRest
    · exact isRest
  · exact ParseError.pointsInto_here

theorem spaces_orderly : Orderly spaces :=
  charsOf_orderly isSpacing

theorem Orderly.spacing {parser : Parser α} (orderly : Orderly parser) :
    Orderly (spacing parser) :=
  .bind spaces_orderly fun _ => .bind orderly fun _ => .bind spaces_orderly fun _ => .pure

theorem symbolicName_orderly : Orderly symbolicName :=
  .orElse
    (.bind (char_orderly _) fun _ => .bind (someCharsOf_orderly _) fun _ =>
      .bind (char_orderly _) fun _ => .pure)
    (.bind (charOf_orderly _) fun _ => .bind (charsOf_orderly _) fun _ => .pure)

theorem variableName_orderly : Orderly variableName :=
  symbolicName_orderly.satisfying

theorem digits_orderly : Orderly digits :=
  someCharsOf_orderly Char.isDigit

theorem floatLiteral_orderly : Orderly floatLiteral :=
  .bind digits_orderly fun _ => .bind (char_orderly _) fun _ => .bind digits_orderly fun _ => .pure

/-- A number that is too large fails where it began. -/
theorem integerLiteral_orderly : Orderly integerLiteral := by
  intro input
  unfold integerLiteral
  cases outcome : digits input with
  | accept ds rest =>
    show Outcome.Within input (if _ then _ else _)
    split
    · exact digits_orderly.accepts outcome
    · exact ParseError.pointsInto_here
  | reject error => exact digits_orderly.rejects outcome
  | abort error => exact digits_orderly.aborts outcome

theorem stringLiteral_orderly (quote : Char) : Orderly (stringLiteral quote) :=
  .bind (char_orderly _) fun _ => .bind (charsOf_orderly _) fun _ =>
    .bind (char_orderly _) fun _ => .pure

theorem wordLiteral_orderly (word : String) (value : Literal) : Orderly (wordLiteral word value) :=
  .bind (keyword_orderly word) fun _ => .pure

theorem literal_orderly : Orderly literal := by
  refine .oneOf ?_ (stringLiteral_orderly _)
  simp only [List.forall_mem_cons]
  exact ⟨wordLiteral_orderly _ _, wordLiteral_orderly _ _, wordLiteral_orderly _ _,
    floatLiteral_orderly, integerLiteral_orderly, stringLiteral_orderly _, nofun⟩

end

/-! ## Patterns -/

theorem nodePattern_orderly : Orderly nodePattern :=
  .bind (char_orderly _) fun _ => .bind variableName_orderly.spacing.optional fun _ =>
    .bind (.many (.bind (char_orderly _).spacing fun _ => symbolicName_orderly.spacing)) fun _ =>
      .bind (char_orderly _).spacing fun _ => .pure

theorem typeSeparator_orderly : Orderly typeSeparator :=
  .orElse (token_orderly _) (token_orderly _)

theorem relationshipTypes_orderly : Orderly relationshipTypes :=
  .bind (char_orderly _).spacing fun _ =>
    .separated typeSeparator_orderly.spacing symbolicName_orderly.spacing

theorem relationshipDetail_orderly : Orderly relationshipDetail :=
  .bind (char_orderly _).spacing fun _ => .bind variableName_orderly.spacing.optional fun _ =>
    .bind relationshipTypes_orderly.optional fun _ => .bind (char_orderly _).spacing fun _ => .pure

theorem spacedChar_orderly (c : Char) : Orderly (spacedChar c) :=
  .bind spaces_orderly fun _ => char_orderly c

theorem relationshipPattern_orderly : Orderly relationshipPattern :=
  .bind (char_orderly _).optional fun _ => .bind (spacedChar_orderly _) fun _ =>
    .bind relationshipDetail_orderly.optional fun _ => .bind (spacedChar_orderly _) fun _ =>
      .bind (spacedChar_orderly _).optional fun _ => .pure

theorem hop_orderly : Orderly hop :=
  .bind relationshipPattern_orderly.spacing fun _ =>
    .bind nodePattern_orderly.spacing.inContext fun _ => .pure

theorem pattern_orderly : Orderly pattern :=
  .bind nodePattern_orderly.spacing fun _ => .bind hop_orderly.many fun _ => .pure

/-! ## Operators -/

section

variable {α β : Type}

theorem Orderly.meaning {value : α} {symbol : Parser Unit} (orderly : Orderly symbol) :
    Orderly (meaning value symbol) :=
  .bind orderly fun _ => .pure

theorem Orderly.step {operator : Parser α} {operand : Parser β} (isOperator : Orderly operator)
    (isOperand : Orderly operand) : Orderly (step operator operand) :=
  .bind isOperator.spacing fun _ => .bind isOperand fun _ => .pure

end

theorem comparisonOperator_orderly : Orderly comparisonOperator := by
  refine .oneOf ?_ (token_orderly _).meaning
  simp only [List.forall_mem_cons]
  exact ⟨(token_orderly _).meaning, (token_orderly _).meaning, (token_orderly _).meaning,
    (token_orderly _).meaning, (token_orderly _).meaning, nofun⟩

theorem additiveOperator_orderly : Orderly additiveOperator :=
  .orElse (token_orderly _).meaning (token_orderly _).meaning

theorem multiplicativeOperator_orderly : Orderly multiplicativeOperator := by
  refine .oneOf ?_ (token_orderly _).meaning
  simp only [List.forall_mem_cons]
  exact ⟨(token_orderly _).meaning, (token_orderly _).meaning, nofun⟩

theorem twoWords_orderly (first second : String) : Orderly (twoWords first second) :=
  .bind (keyword_orderly _) fun _ => .bind (someCharsOf_orderly _) fun _ => keyword_orderly _

theorem stringOperator_orderly : Orderly stringOperator := by
  refine .oneOf ?_ (keyword_orderly _).meaning
  simp only [List.forall_mem_cons]
  exact ⟨(twoWords_orderly _ _).meaning, (twoWords_orderly _ _).meaning, nofun⟩

theorem sign_orderly : Orderly sign :=
  .orElse (char_orderly _) (char_orderly _)

/-! ## Expressions -/

theorem countAll_orderly : Orderly countAll :=
  .bind (keyword_orderly _) fun _ => .bind (char_orderly _).spacing fun _ =>
    .bind (char_orderly _).spacing fun _ => .bind (char_orderly _) fun _ => .pure

theorem patternAtom_orderly : Orderly patternAtom :=
  .bind pattern_orderly.satisfying fun _ => .pure

theorem literalAtom_orderly : Orderly literalAtom :=
  .bind literal_orderly fun _ => .pure

theorem nameAtom_orderly : Orderly nameAtom :=
  .bind variableName_orderly fun _ => .pure

theorem property_orderly : Orderly property :=
  .spacing (.bind (char_orderly _) fun _ => symbolicName_orderly)

section

variable {expression : Parser Expression} (inner : Orderly expression)

include inner

theorem call_orderly : Orderly (call expression) :=
  .bind symbolicName_orderly fun _ => .bind (char_orderly _).spacing fun _ =>
    .bind (keyword_orderly _).spacing.optional fun _ =>
      .bind (.separatedOrNone (char_orderly _).spacing inner) fun _ =>
        .bind (char_orderly _) fun _ => .pure

theorem parenthesized_orderly : Orderly (parenthesized expression) :=
  .bind (char_orderly _).spacing fun _ => .bind inner fun _ =>
    .bind (char_orderly _).spacing fun _ => .pure

theorem atom_orderly : Orderly (atom expression) := by
  refine .oneOf ?_ nameAtom_orderly
  simp only [List.forall_mem_cons]
  exact ⟨literalAtom_orderly, countAll_orderly, call_orderly inner, patternAtom_orderly,
    parenthesized_orderly inner, nofun⟩

theorem term_orderly : Orderly (term expression) :=
  .bind (atom_orderly inner).spacing fun _ => .bind property_orderly.many fun _ => .pure

theorem signed_orderly : Orderly (signed expression) :=
  .bind sign_orderly.spacing.optional fun _ => .bind (term_orderly inner) fun _ =>
    .bind (stringOperator_orderly.step (term_orderly inner)).many fun _ => .pure

theorem power_orderly : Orderly (power expression) :=
  .bind (.separated (char_orderly _).spacing (signed_orderly inner)) fun _ => .pure

theorem multiplication_orderly : Orderly (multiplication expression) :=
  .bind (power_orderly inner) fun _ =>
    .bind (multiplicativeOperator_orderly.step (power_orderly inner)).many fun _ => .pure

theorem addition_orderly : Orderly (addition expression) :=
  .bind (multiplication_orderly inner) fun _ =>
    .bind (additiveOperator_orderly.step (multiplication_orderly inner)).many fun _ => .pure

theorem comparison_orderly : Orderly (comparison expression) :=
  .bind (keyword_orderly _).spacing.many fun _ => .bind (addition_orderly inner) fun _ =>
    .bind (comparisonOperator_orderly.step (addition_orderly inner)).many fun _ => .pure

theorem conjunction_orderly : Orderly (conjunction expression) :=
  .bind (.separated (keyword_orderly _).spacing (comparison_orderly inner)) fun _ => .pure

theorem exclusion_orderly : Orderly (exclusion expression) :=
  .bind (.separated (keyword_orderly _).spacing (conjunction_orderly inner)) fun _ => .pure

theorem disjunction_orderly : Orderly (disjunction expression) :=
  .bind (.separated (keyword_orderly _).spacing (exclusion_orderly inner)) fun _ => .pure

end

theorem nested_orderly (depth : Nat) : Orderly (nested depth) := by
  induction depth with
  | zero => exact .unexpected
  | succ depth ih => exact disjunction_orderly ih

theorem expression_orderly : Orderly expression :=
  fun input => nested_orderly (input.length + 1) input

/-! ## Clauses -/

theorem whereClause_orderly : Orderly whereClause :=
  .bind (keyword_orderly _).spacing fun _ => expression_orderly.commit.inContext

theorem matchClause_orderly : Orderly matchClause :=
  .bind (keyword_orderly _).spacing fun _ =>
    .bind (Orderly.separated (char_orderly _).spacing pattern_orderly.commit).inContext fun _ =>
      .bind whereClause_orderly.optional fun _ => .pure

theorem itemName_orderly : Orderly itemName :=
  .bind (keyword_orderly _).spacing fun _ => variableName_orderly.spacing.commit.inContext

theorem projectionItem_orderly : Orderly projectionItem :=
  .bind expression_orderly fun _ => .bind itemName_orderly.optional fun _ => .pure

theorem projectionItems_orderly : Orderly projectionItems :=
  .separated (char_orderly _).spacing projectionItem_orderly.commit

theorem withClause_orderly : Orderly withClause :=
  .bind (keyword_orderly _).spacing fun _ => .bind projectionItems_orderly.inContext fun _ =>
    .bind whereClause_orderly.optional fun _ => .pure

theorem pageClause_orderly (word : String) (context : Context) :
    Orderly (pageClause word context) :=
  .bind (keyword_orderly word).spacing fun _ => expression_orderly.commit.inContext

theorem returnClause_orderly : Orderly returnClause :=
  .bind (keyword_orderly _).spacing fun _ => .bind (keyword_orderly _).spacing.optional fun _ =>
    .bind projectionItems_orderly.inContext fun _ =>
      .bind (pageClause_orderly _ _).optional fun _ =>
        .bind (pageClause_orderly _ _).optional fun _ => .pure

theorem readingClause_orderly : Orderly readingClause :=
  .orElse (.bind matchClause_orderly fun _ => .pure) (.bind withClause_orderly fun _ => .pure)

theorem query_orderly : Orderly query :=
  .bind spaces_orderly fun _ => .bind readingClause_orderly.many fun _ =>
    .bind returnClause_orderly.commit.inContext fun _ =>
      .bind (char_orderly _).spacing.optional fun _ => .pure

/-! ## Whole texts -/

/-- What is reported on a text: a failure that points into it, or a value behind which only
blanks are left of it. -/
inductive Reported {α : Type} (parser : Parser α) (text : List Char) : Except ParseError α → Prop
  | failed {error : ParseError} (points : error.PointsInto text) :
    Reported parser text (.error error)
  | read {value : α} {rest : List Char} (reads : parser text = .accept value rest)
    (ends : rest <:+ text) (blank : ∀ c ∈ rest, Text.isBlank c = true) :
    Reported parser text (.ok value)

/-- A text that is empty once it is trimmed is blank. -/
theorem isBlank_of_trim {text : List Char} (trimmed : (Text.trim text).isEmpty = true) :
    ∀ c ∈ text, Text.isBlank c = true := by
  have left : ∀ c ∈ text.dropWhile Text.isBlank, Text.isBlank c = true :=
    List.rdropWhile_eq_nil_iff.mp (List.isEmpty_iff.mp trimmed)
  intro c member
  rw [← List.takeWhile_append_dropWhile (p := Text.isBlank) (l := text)] at member
  obtain member | member := List.mem_append.mp member
  · exact List.mem_takeWhile_imp member
  · exact left c member

theorem Orderly.whole {α : Type} {parser : Parser α} (orderly : Orderly parser) (text : String) :
    Reported parser text.toList (whole parser text) := by
  unfold Parser.whole
  cases outcome : parser text.toList with
  | accept value rest =>
    have ends := orderly.accepts outcome
    show Reported parser text.toList (if _ then _ else _)
    split
    next trimmed => exact .read outcome ends (isBlank_of_trim trimmed)
    next => exact .failed (ParseError.pointsInto_here.of_suffix ends)
  | reject error => exact .failed (orderly.rejects outcome)
  | abort error => exact .failed (orderly.aborts outcome)

end Parser

/-- A text that is no query or no expression is reported with a failure that has at least one
place, all of them in the text and each of them in the next.  Behind a query or an expression only
blanks are left. -/
theorem parse_reported (text : String) :
    Parser.Reported Parser.query text.toList (Query.parse text) ∧
      Parser.Reported (Parser.spacing Parser.expression) text.toList (Expression.parse text) :=
  ⟨Parser.query_orderly.whole text, Parser.expression_orderly.spacing.whole text⟩

end CypherSql.Cypher
