import CypherSql.Proofs.Cypher.Failures

/-! # The bounds of reading are never met

A repetition and the depth of nesting are bounded by the length of what is read.  A construct that
is repeated takes at least one character, though, and so does a parenthesis.  So a list is read to
its end, and a level of the grammar reads nested expressions of any depth.

* `Takes` — a parser that leaves less than it was given.
* `many_eq`, `separated_eq` — a repetition goes on as long as there is an item.
* `hop_takes`, `property_takes`, …, `readingClause_takes` — what the grammar repeats takes
  something.
* `SameBelow` — two parsers that do the same on short inputs.
* `disjunction_same` — a level looks at nested expressions on shorter inputs only.
* `expression_eq` — an expression is a disjunction in which expressions are nested.
-/

namespace CypherSql.Cypher.Parser

/-! ## Parsers that take something -/

/-- Whatever is read, less is left. -/
def Takes {α : Type} (parser : Parser α) : Prop :=
  ∀ input value rest, parser input = .accept value rest → rest.length < input.length

/-- A sequence is read where its first part is, and behind that the next one. -/
theorem exists_of_bind_accepts {α β : Type} {first : Parser α} {next : α → Parser β}
    {input rest : List Char} {value : β} (read : (first >>= next) input = .accept value rest) :
    ∃ found middle, first input = .accept found middle ∧
      next found middle = .accept value rest := by
  change andThen first next input = _ at read
  unfold andThen at read
  cases outcome : first input with
  | accept found middle =>
    rw [outcome] at read
    exact ⟨found, middle, rfl, read⟩
  | reject error | abort error =>
    rw [outcome] at read
    contradiction

namespace Takes

variable {α β : Type} {parser first second : Parser α} {next : α → Parser β}

theorem bind (takes : Takes first) (orderly : ∀ value, Orderly (next value)) :
    Takes (first >>= next) := by
  intro input value rest read
  obtain ⟨found, middle, readFirst, readNext⟩ := exists_of_bind_accepts read
  exact Nat.lt_of_le_of_lt ((orderly found).accepts readNext).length_le (takes _ _ _ readFirst)

theorem bind_next (orderly : Orderly first) (takes : ∀ value, Takes (next value)) :
    Takes (first >>= next) := by
  intro input value rest read
  obtain ⟨found, middle, readFirst, readNext⟩ := exists_of_bind_accepts read
  exact Nat.lt_of_lt_of_le (takes found _ _ _ readNext) (orderly.accepts readFirst).length_le

theorem orElse (isFirst : Takes first) (isSecond : Takes second) : Takes (orElse first second) := by
  intro input value rest read
  unfold Parser.orElse at read
  split at read
  · exact isSecond _ _ _ read
  · exact isFirst _ _ _ read

theorem oneOf {others : List (Parser α)} {last : Parser α}
    (areOthers : ∀ other ∈ others, Takes other) (isLast : Takes last) :
    Takes (oneOf others last) := by
  induction others with
  | nil => exact isLast
  | cons first others ih =>
    obtain ⟨isFirst, areOthers⟩ := List.forall_mem_cons.mp areOthers
    exact isFirst.orElse (ih areOthers)

theorem spacing (takes : Takes parser) : Takes (spacing parser) :=
  .bind_next spaces_orderly fun _ => .bind takes fun _ => .bind spaces_orderly fun _ => .pure

end Takes

/-! ## Repetition -/

section

variable {α : Type} {item : Parser α}

theorem manyUpTo_eq_of_lt (takes : Takes item) {input : List Char} {fuel : Nat}
    (enough : input.length < fuel) : manyUpTo fuel item input = many item input := by
  suffices ∀ other, input.length < other → manyUpTo fuel item input = manyUpTo other item input from
    this _ (Nat.lt_succ_self _)
  induction fuel generalizing input with
  | zero => omega
  | succ fuel ih =>
    intro other enoughToo
    obtain ⟨other, rfl⟩ := Nat.exists_eq_succ_of_ne_zero (Nat.ne_zero_of_lt enoughToo)
    unfold manyUpTo
    cases outcome : item input with
    | accept value rest =>
      have shorter := takes _ _ _ outcome
      dsimp only
      rw [ih (by omega) other (by omega)]
    | reject | abort => rfl

theorem manyUpTo_ne_reject (fuel : Nat) (input : List Char) (error : ParseError) :
    manyUpTo fuel item input ≠ .reject error := by
  intro rejected
  induction fuel generalizing input error with
  | zero => contradiction
  | succ fuel ih =>
    unfold manyUpTo at rejected
    cases outcome : item input with
    | accept value rest =>
      rw [outcome] at rejected
      dsimp only at rejected
      cases others : manyUpTo fuel item rest with
      | accept | abort =>
        rw [others] at rejected
        contradiction
      | reject failure => exact ih rest failure others
    | reject | abort =>
      rw [outcome] at rejected
      contradiction

/-- A repetition has no bound of its own. -/
theorem many_eq (takes : Takes item) :
    many item =
      orElse (do let first ← item; let rest ← many item; return first :: rest) (succeed []) := by
  funext input
  show manyUpTo (input.length + 1) item input =
    orElse (andThen item fun first => andThen (many item) fun rest => succeed (first :: rest))
      (succeed []) input
  unfold manyUpTo orElse andThen
  cases outcome : item input with
  | accept value rest =>
    dsimp only
    rw [manyUpTo_eq_of_lt takes (takes _ _ _ outcome)]
    cases others : many item rest with
    | accept | abort => rfl
    | reject error => exact absurd others (manyUpTo_ne_reject _ rest error)
  | reject | abort => rfl

/-- A list behind its first item goes on where a separator and an item follow, and ends
otherwise. -/
theorem separated_eq {β : Type} {separator : Parser β} (takes : Takes separator)
    (orderly : Orderly item) :
    separated separator item = (do
      let first ← item
      orElse (do let _ ← separator; let rest ← separated separator item; return first :: rest)
        (succeed [first])) := by
  refine congrArg (andThen item) (funext fun first => funext fun input => ?_)
  have takesBoth : Takes (do let _ ← separator; item) := takes.bind fun _ => orderly
  show andThen (many (do let _ ← separator; item)) (fun rest => succeed (first :: rest)) input =
    orElse (andThen separator fun _ => andThen (separated separator item) fun rest =>
      succeed (first :: rest)) (succeed [first]) input
  rw [many_eq takesBoth]
  simp only [separated, bind, pure, andThen, Parser.orElse, succeed]
  cases separator input with
  | accept _ middle =>
    dsimp only
    cases item middle with
    | accept value rest =>
      dsimp only
      cases others : many (andThen separator fun _ => item) rest with
      | accept | abort => rfl
      | reject error => exact absurd others (manyUpTo_ne_reject _ rest error)
    | reject | abort => rfl
  | reject | abort => rfl

end

/-! ## Words -/

section

variable {α β : Type}

theorem charOf_takes (test : Char → Bool) : Takes (charOf test) := by
  intro input value rest read
  cases input with
  | nil => contradiction
  | cons c tail =>
    rw [charOf] at read
    split at read
    · obtain ⟨rfl, rfl⟩ := Outcome.accept.inj read
      exact Nat.lt_succ_self _
    · contradiction

theorem char_takes (c : Char) : Takes (char c) :=
  charOf_takes (· == c)

theorem restBehind_length {word input rest : List Char}
    (behind : restBehind word input = some rest) : input.length = word.length + rest.length := by
  fun_induction restBehind word input with
  | case1 input => simp [Option.some.inj behind]
  | case2 c word d input same ih => simp [ih behind, Nat.add_right_comm]
  | case3 => contradiction
  | case4 => contradiction

theorem token_takes {word : String} (nonempty : word.toList ≠ []) : Takes (token word) := by
  intro input value rest read
  unfold token at read
  split at read
  next left behind =>
    obtain ⟨-, rfl⟩ := Outcome.accept.inj read
    have length := restBehind_length behind
    have positive := List.length_pos_of_ne_nil nonempty
    omega
  next => contradiction

/-- To drop a byte is to drop at least a character. -/
theorem dropBytes_length_lt {count : Nat} {text : List Char} (positive : 0 < count)
    (nonempty : text ≠ []) : (dropBytes count text).length < text.length := by
  obtain ⟨count, rfl⟩ := Nat.exists_eq_succ_of_ne_zero (Nat.ne_zero_of_lt positive)
  obtain ⟨c, rest, rfl⟩ := List.exists_cons_of_ne_nil nonempty
  rw [dropBytes]
  exact Nat.lt_succ_of_le (dropBytes_suffix _ rest).length_le

theorem byteLength_pos {text : List Char} (nonempty : text ≠ []) : 0 < byteLength text := by
  obtain ⟨c, rest, rfl⟩ := List.exists_cons_of_ne_nil nonempty
  exact Nat.add_pos_left c.utf8Size_pos _

theorem keyword_takes {word : String} (nonempty : word.toList ≠ []) : Takes (keyword word) := by
  intro input value rest read
  have positive := byteLength_pos nonempty
  unfold keyword at read
  split at read
  next fits =>
    have isInput : input ≠ [] := by
      rintro rfl
      simp [byteLength, Nat.ne_zero_of_lt positive] at fits
    have shorter := dropBytes_length_lt positive isInput
    dsimp only at read
    split at read
    · split at read
      · contradiction
      · obtain ⟨-, rfl⟩ := Outcome.accept.inj read
        exact shorter
    · obtain ⟨-, rfl⟩ := Outcome.accept.inj read
      exact shorter
  next => contradiction

theorem Takes.meaning {value : α} {symbol : Parser Unit} (takes : Takes symbol) :
    Takes (meaning value symbol) :=
  .bind takes fun _ => .pure

theorem Takes.step {operator : Parser α} {operand : Parser β} (takes : Takes operator)
    (isOperand : Orderly operand) : Takes (step operator operand) :=
  .bind takes.spacing fun _ => .bind isOperand fun _ => .pure

end

/-! ## What the grammar repeats -/

theorem typeSeparator_takes : Takes typeSeparator :=
  .orElse (token_takes (by decide)) (token_takes (by decide))

theorem spacedChar_takes (c : Char) : Takes (spacedChar c) :=
  .bind_next spaces_orderly fun _ => char_takes c

/-- The least relationship is two dashes. -/
theorem relationshipPattern_takes : Takes relationshipPattern :=
  .bind_next (char_orderly _).optional fun _ => .bind (spacedChar_takes _) fun _ =>
    .bind relationshipDetail_orderly.optional fun _ => .bind (spacedChar_orderly _) fun _ =>
      .bind (spacedChar_orderly _).optional fun _ => .pure

theorem hop_takes : Takes hop :=
  .bind relationshipPattern_takes.spacing fun _ =>
    .bind nodePattern_orderly.spacing.inContext fun _ => .pure

theorem property_takes : Takes property :=
  .spacing (.bind (char_takes _) fun _ => symbolicName_orderly)

theorem comparisonOperator_takes : Takes comparisonOperator := by
  refine .oneOf ?_ (token_takes (by decide)).meaning
  simp only [List.forall_mem_cons]
  exact ⟨(token_takes (by decide)).meaning, (token_takes (by decide)).meaning,
    (token_takes (by decide)).meaning, (token_takes (by decide)).meaning,
    (token_takes (by decide)).meaning, nofun⟩

theorem additiveOperator_takes : Takes additiveOperator :=
  .orElse (token_takes (by decide)).meaning (token_takes (by decide)).meaning

theorem multiplicativeOperator_takes : Takes multiplicativeOperator := by
  refine .oneOf ?_ (token_takes (by decide)).meaning
  simp only [List.forall_mem_cons]
  exact ⟨(token_takes (by decide)).meaning, (token_takes (by decide)).meaning, nofun⟩

theorem twoWords_takes {first : String} (nonempty : first.toList ≠ []) (second : String) :
    Takes (twoWords first second) :=
  .bind (keyword_takes nonempty) fun _ => .bind (someCharsOf_orderly _) fun _ => keyword_orderly _

theorem stringOperator_takes : Takes stringOperator := by
  refine .oneOf ?_ (keyword_takes (by decide)).meaning
  simp only [List.forall_mem_cons]
  exact ⟨(twoWords_takes (by decide) _).meaning, (twoWords_takes (by decide) _).meaning, nofun⟩

theorem readingClause_takes : Takes readingClause :=
  .orElse
    (.bind
      (.bind (keyword_takes (by decide)).spacing fun _ =>
        .bind (Orderly.separated (char_orderly _).spacing pattern_orderly.commit).inContext
          fun _ => .bind whereClause_orderly.optional fun _ => .pure)
      fun _ => .pure)
    (.bind
      (.bind (keyword_takes (by decide)).spacing fun _ =>
        .bind projectionItems_orderly.inContext fun _ =>
          .bind whereClause_orderly.optional fun _ => .pure)
      fun _ => .pure)

/-! ## Parsers that agree on short inputs -/

/-- Below a length of the input there is no difference. -/
def SameBelow {α : Type} (bound : Nat) (first second : Parser α) : Prop :=
  ∀ input, input.length < bound → first input = second input

namespace SameBelow

variable {α β : Type} {bound : Nat} {parser other first second first' second' : Parser α}
  {next next' : α → Parser β}

theorem refl : SameBelow bound parser parser :=
  fun _ _ => rfl

theorem bind (same : SameBelow bound first first') (orderly : Orderly first)
    (sameNext : ∀ value, SameBelow bound (next value) (next' value)) :
    SameBelow bound (first >>= next) (first' >>= next') := by
  intro input short
  show andThen first next input = andThen first' next' input
  unfold andThen
  rw [← same input short]
  cases outcome : first input with
  | accept value rest =>
    exact sameNext value rest
      (Nat.lt_of_le_of_lt (orderly.accepts outcome).length_le short)
  | reject error | abort error => rfl

/-- What follows alike makes no difference. -/
theorem followed (same : SameBelow bound first first') :
    SameBelow bound (first >>= next) (first' >>= next) := by
  intro input short
  show andThen first next input = andThen first' next input
  unfold andThen
  rw [← same input short]

/-- Behind something that was taken, the input is shorter. -/
theorem behind (takes : Takes first)
    (sameNext : ∀ value, SameBelow bound (next value) (next' value)) :
    SameBelow (bound + 1) (first >>= next) (first >>= next') := by
  intro input short
  show andThen first next input = andThen first next' input
  unfold andThen
  cases outcome : first input with
  | accept value rest =>
    exact sameNext value rest
      (Nat.lt_of_lt_of_le (takes _ _ _ outcome) (Nat.le_of_lt_succ short))
  | reject error | abort error => rfl

theorem orElse (same : SameBelow bound first first') (sameSecond : SameBelow bound second second') :
    SameBelow bound (orElse first second) (orElse first' second') := by
  intro input short
  unfold Parser.orElse
  rw [← same input short, ← sameSecond input short]

theorem manyUpTo (same : SameBelow bound parser other) (orderly : Orderly parser) (fuel : Nat) :
    SameBelow bound (manyUpTo fuel parser) (manyUpTo fuel other) := by
  induction fuel with
  | zero => exact .refl
  | succ fuel ih =>
    intro input short
    unfold Parser.manyUpTo
    rw [← same input short]
    cases outcome : parser input with
    | accept value rest =>
      dsimp only
      rw [ih rest (Nat.lt_of_le_of_lt (orderly.accepts outcome).length_le short)]
    | reject error | abort error => rfl

theorem many (same : SameBelow bound parser other) (orderly : Orderly parser) :
    SameBelow bound (many parser) (many other) :=
  fun input short => same.manyUpTo orderly (input.length + 1) input short

theorem separated {separator : Parser β} (same : SameBelow bound parser other)
    (isSeparator : Orderly separator) (orderly : Orderly parser) :
    SameBelow bound (separated separator parser) (separated separator other) :=
  .bind same orderly fun _ =>
    .followed (.many (.bind .refl isSeparator fun _ => same) (isSeparator.bind fun _ => orderly))

theorem separatedOrNone {separator : Parser β} (same : SameBelow bound parser other)
    (isSeparator : Orderly separator) (orderly : Orderly parser) :
    SameBelow bound (separatedOrNone separator parser) (separatedOrNone separator other) :=
  .orElse (same.separated isSeparator orderly) .refl

theorem spacing (same : SameBelow bound parser other) :
    SameBelow bound (spacing parser) (spacing other) :=
  .bind .refl spaces_orderly fun _ => same.followed

/-- Any number of operators, an operand behind each of them. -/
theorem steps {operator : Parser β} (same : SameBelow bound parser other)
    (isOperator : Orderly operator) (orderly : Orderly parser) :
    SameBelow bound (Parser.many (step operator parser)) (Parser.many (step operator other)) :=
  .many (.bind .refl isOperator.spacing fun _ => same.followed) (isOperator.step orderly)

end SameBelow

/-! ## Levels of nesting

An expression stands behind a parenthesis wherever another one contains it, so a level looks at
shorter inputs of the parser it is given. -/

section

variable {bound : Nat} {expression other : Parser Expression} (inner : Orderly expression)
  (same : SameBelow bound expression other)

include inner same

theorem call_same : SameBelow (bound + 1) (call expression) (call other) :=
  .bind .refl symbolicName_orderly fun _ => .behind (char_takes _).spacing fun _ =>
    .bind .refl (keyword_orderly _).spacing.optional fun _ =>
      (same.separatedOrNone (char_orderly _).spacing inner).followed

omit inner in
theorem parenthesized_same :
    SameBelow (bound + 1) (parenthesized expression) (parenthesized other) :=
  .behind (char_takes _).spacing fun _ => same.followed

theorem atom_same : SameBelow (bound + 1) (atom expression) (atom other) :=
  .orElse .refl <| .orElse .refl <| .orElse (call_same inner same) <|
    .orElse .refl <| .orElse (parenthesized_same same) .refl

theorem term_same : SameBelow (bound + 1) (term expression) (term other) :=
  (atom_same inner same).spacing.followed

theorem signed_same : SameBelow (bound + 1) (signed expression) (signed other) :=
  .bind .refl sign_orderly.spacing.optional fun _ =>
    .bind (term_same inner same) (term_orderly inner) fun _ =>
      ((term_same inner same).steps stringOperator_orderly (term_orderly inner)).followed

theorem power_same : SameBelow (bound + 1) (power expression) (power other) :=
  ((signed_same inner same).separated (char_orderly _).spacing (signed_orderly inner)).followed

theorem multiplication_same :
    SameBelow (bound + 1) (multiplication expression) (multiplication other) :=
  .bind (power_same inner same) (power_orderly inner) fun _ =>
    ((power_same inner same).steps multiplicativeOperator_orderly (power_orderly inner)).followed

theorem addition_same : SameBelow (bound + 1) (addition expression) (addition other) :=
  .bind (multiplication_same inner same) (multiplication_orderly inner) fun _ =>
    ((multiplication_same inner same).steps additiveOperator_orderly
      (multiplication_orderly inner)).followed

theorem comparison_same : SameBelow (bound + 1) (comparison expression) (comparison other) :=
  .bind .refl (keyword_orderly _).spacing.many fun _ =>
    .bind (addition_same inner same) (addition_orderly inner) fun _ =>
      ((addition_same inner same).steps comparisonOperator_orderly
        (addition_orderly inner)).followed

theorem conjunction_same : SameBelow (bound + 1) (conjunction expression) (conjunction other) :=
  ((comparison_same inner same).separated (keyword_orderly _).spacing
    (comparison_orderly inner)).followed

theorem exclusion_same : SameBelow (bound + 1) (exclusion expression) (exclusion other) :=
  ((conjunction_same inner same).separated (keyword_orderly _).spacing
    (conjunction_orderly inner)).followed

theorem disjunction_same : SameBelow (bound + 1) (disjunction expression) (disjunction other) :=
  ((exclusion_same inner same).separated (keyword_orderly _).spacing
    (exclusion_orderly inner)).followed

end

/-- Inputs shorter than the depth do not tell it from any greater one. -/
theorem nested_same {depth deeper : Nat} (isDeeper : depth ≤ deeper) :
    SameBelow depth (nested depth) (nested deeper) := by
  induction depth generalizing deeper with
  | zero => exact fun _ short => absurd short (Nat.not_lt_zero _)
  | succ depth ih =>
    obtain ⟨deeper, rfl⟩ := Nat.exists_eq_succ_of_ne_zero (Nat.ne_zero_of_lt isDeeper)
    exact disjunction_same (nested_orderly depth) (ih (Nat.le_of_succ_le_succ isDeeper))

theorem nested_expression {depth : Nat} : SameBelow depth (nested depth) expression :=
  fun input short => (nested_same short input (Nat.lt_succ_self _)).symm

/-- Expressions nest to any depth. -/
theorem expression_eq : expression = disjunction expression := by
  funext input
  show disjunction (nested input.length) input = disjunction expression input
  exact disjunction_same (nested_orderly _) nested_expression input (Nat.lt_succ_self _)

end CypherSql.Cypher.Parser
