import CypherSql.Proofs.Sql.Phrases

/-! # A fragment is read in one way

Brackets are counted, so that what stands outside of all brackets is known from the lexemes alone.
Phrases without an operator there are told apart by it.  Where two readings part at different
operators, the one operator would have to bind both more tightly and more loosely than the other.

* `Fragment.outside` — the lexemes that stand outside of all brackets.
* `Phrase.divide` — how two divisions of one fragment can differ.
* `Phrase.alike` — what phrases have in common that are written alike.
* `Reads.unique`, `Denotes.unique` — a fragment is read in one way.
* `Phrase.denotes_tree_iff` — a phrase is read as its own tree exactly when it fits.
-/

namespace CypherSql.Sql

/-! ## Brackets -/

/-- How a lexeme changes the number of open brackets. -/
def Lexeme.turn : Lexeme → Int
  | opening => 1
  | closing => -1
  | _ => 0

theorem Binary.turn_lexeme (operator : Binary) : operator.lexeme.turn = 0 := by
  cases operator <;> rfl

theorem Unary.turn_lexeme (operator : Unary) : operator.lexeme.turn = 0 := by
  cases operator <;> rfl

theorem Lexeme.level_of_isOperand {lexeme : Lexeme} (stands : lexeme.isOperand = true) :
    lexeme.level = 9 := by
  cases lexeme <;> first | rfl | contradiction

theorem Lexeme.turn_of_isOperand {lexeme : Lexeme} (stands : lexeme.isOperand = true) :
    lexeme.turn = 0 := by
  cases lexeme <;> first | rfl | contradiction

namespace Fragment

/-- How many brackets a fragment opens more than it closes. -/
def depth : Fragment → Int
  | [] => 0
  | lexeme :: rest => lexeme.turn + depth rest

/-- The lexemes that stand outside of all brackets, where `open` brackets are open in front of
the fragment. -/
def outside (opened : Int) : Fragment → Fragment
  | [] => []
  | lexeme :: rest =>
    if opened = 0 ∧ lexeme.turn = 0 then lexeme :: outside (opened + lexeme.turn) rest
    else outside (opened + lexeme.turn) rest

@[simp] theorem depth_nil : depth [] = 0 := rfl

@[simp] theorem depth_cons (lexeme : Lexeme) (rest : Fragment) :
    depth (lexeme :: rest) = lexeme.turn + depth rest := rfl

@[simp] theorem depth_append (first second : Fragment) :
    depth (first ++ second) = depth first + depth second := by
  induction first with
  | nil => simp
  | cons lexeme first ih => rw [List.cons_append, depth_cons, depth_cons, ih, Int.add_assoc]

theorem outside_append (opened : Int) (first second : Fragment) :
    outside opened (first ++ second) =
      outside opened first ++ outside (opened + depth first) second := by
  induction first generalizing opened with
  | nil => simp [outside]
  | cons lexeme rest ih =>
    simp only [List.cons_append, outside, ih, depth_cons, ← Int.add_assoc]
    split <;> rfl

theorem outside_cons {lexeme : Lexeme} (plain : lexeme.turn = 0) (rest : Fragment) :
    outside 0 (lexeme :: rest) = lexeme :: outside 0 rest := by
  simp [outside, plain]

/-- The lexemes that are no brackets. -/
def solid (fragment : Fragment) : Fragment :=
  fragment.filter fun lexeme => lexeme.turn == 0

@[simp] theorem solid_nil : solid [] = [] := rfl

theorem solid_cons (lexeme : Lexeme) (rest : Fragment) :
    solid (lexeme :: rest) = (if lexeme.turn == 0 then [lexeme] else []) ++ solid rest := by
  simp only [solid, List.filter_cons]
  split <;> rfl

@[simp] theorem solid_append (first second : Fragment) :
    solid (first ++ second) = solid first ++ solid second :=
  List.filter_append first second

end Fragment

namespace Phrase

open Fragment (depth outside outside_append outside_cons solid solid_cons)

section

-- These facts are read off the fragments of phrases.  Most others follow from them.
attribute [local simp] fragment outside

/-- A phrase closes the brackets that it opens. -/
@[simp] theorem depth_fragment (phrase : Phrase) : depth phrase.fragment = 0 := by
  induction phrase with
  | operand lexeme stands => simp [Lexeme.turn_of_isOperand stands]
  | group inner ih => simp [Fragment.parenthesized, ih, Lexeme.turn]
  | count distinct argument ih => cases distinct <;> simp [ih, Lexeme.turn]
  | power base exponent first second => simp [first, second, Lexeme.turn]
  | unary operator inner ih => simp [ih, Unary.turn_lexeme]
  | binary operator left right first second => simp [first, second, Binary.turn_lexeme]

/-- Inside of brackets nothing of a phrase stands outside of all brackets. -/
theorem outside_fragment_of_pos {opened : Int} (inside : 0 < opened) (phrase : Phrase) :
    outside opened phrase.fragment = [] := by
  have away : opened ≠ 0 := by omega
  have deeper : opened + 1 ≠ 0 := by omega
  have further : 0 < opened + 1 := by omega
  induction phrase generalizing opened with
  | operand lexeme stands => simp [away]
  | group inner ih =>
    simp [Fragment.parenthesized, outside_append, Lexeme.turn, away, deeper,
      ih further deeper (by omega) (by omega)]
  | count distinct argument ih =>
    cases distinct <;>
      simp [outside_append, Lexeme.turn, away, deeper, ih further deeper (by omega) (by omega)]
  | power base exponent first second =>
    simp [outside_append, Lexeme.turn, away, deeper,
      first further deeper (by omega) (by omega), second further deeper (by omega) (by omega)]
  | unary operator inner ih =>
    simp [Unary.turn_lexeme, away, ih inside away deeper further]
  | binary operator left right first second =>
    simp [outside_append, Binary.turn_lexeme, away, first inside away deeper further,
      second inside away deeper further]

@[simp] theorem outside_operand (lexeme : Lexeme) (stands : lexeme.isOperand = true) :
    outside 0 (operand lexeme stands).fragment = [lexeme] := by
  simp [Lexeme.turn_of_isOperand stands]

@[simp] theorem outside_group (inner : Phrase) : outside 0 (group inner).fragment = [] := by
  simp [Fragment.parenthesized, outside_append, Lexeme.turn, outside_fragment_of_pos]

@[simp] theorem outside_count (distinct : Bool) (argument : Phrase) :
    outside 0 (count distinct argument).fragment = [.function "COUNT"] := by
  cases distinct <;> simp [outside_append, Lexeme.turn, outside_fragment_of_pos]

@[simp] theorem outside_power (base exponent : Phrase) :
    outside 0 (power base exponent).fragment = [.function "POWER"] := by
  simp [outside_append, Lexeme.turn, outside_fragment_of_pos]

@[simp] theorem outside_unary (operator : Unary) (inner : Phrase) :
    outside 0 (unary operator inner).fragment = operator.lexeme :: outside 0 inner.fragment :=
  outside_cons operator.turn_lexeme inner.fragment

@[simp] theorem outside_binary (operator : Binary) (left right : Phrase) :
    outside 0 (binary operator left right).fragment =
      outside 0 left.fragment ++ operator.lexeme :: outside 0 right.fragment := by
  rw [fragment, outside_append, depth_fragment, Int.zero_add, outside_cons operator.turn_lexeme]

end

/-! ## What stands outside of all brackets -/

/-- Commas and `DISTINCT` stand inside of the brackets of a function only. -/
theorem one_le_level_of_mem_outside {phrase : Phrase} {lexeme : Lexeme}
    (isOne : lexeme ∈ outside 0 phrase.fragment) : 1 ≤ lexeme.level := by
  induction phrase with
  | operand given stands =>
    obtain rfl := List.mem_singleton.mp (outside_operand given stands ▸ isOne)
    rw [Lexeme.level_of_isOperand stands]
    decide
  | group => simp at isOne
  | count | power =>
    simp only [outside_count, outside_power, List.mem_singleton] at isOne
    obtain rfl := isOne
    decide
  | unary operator inner ih =>
    rcases List.mem_cons.mp (outside_unary operator inner ▸ isOne) with rfl | inside
    · cases operator <;> decide
    · exact ih inside
  | binary operator left right first second =>
    rcases List.mem_append.mp (outside_binary operator left right ▸ isOne) with inLeft | others
    · exact first inLeft
    · rcases List.mem_cons.mp others with rfl | inRight
      · cases operator <;> simp [Binary.lexeme, Lexeme.level]
      · exact second inRight

/-- The operators that stand outside of all brackets bind as tightly as the phrase has to. -/
theorem level_le_of_mem_outside {phrase : Phrase} {level : Nat}
    (fit : phrase.fits .sql level = true) {lexeme : Lexeme}
    (isOne : lexeme ∈ outside 0 phrase.fragment) (isOperator : lexeme.level < 9) :
    level ≤ lexeme.level := by
  induction phrase generalizing level with
  | operand given stands =>
    obtain rfl := List.mem_singleton.mp (outside_operand given stands ▸ isOne)
    rw [Lexeme.level_of_isOperand stands] at isOperator
    contradiction
  | group => simp at isOne
  | count | power =>
    simp only [outside_count, outside_power, List.mem_singleton] at isOne
    obtain rfl := isOne
    simp [Lexeme.level] at isOperator
  | unary operator inner ih =>
    obtain ⟨reach, inside⟩ := fits_unary.mp fit
    rcases List.mem_cons.mp (outside_unary operator inner ▸ isOne) with rfl | isInside
    · exact reach
    · have asked : operator.level ≤ operator.operandLevel := by cases operator <;> decide
      exact Nat.le_trans (Nat.le_trans reach asked) (ih inside isInside)
  | binary operator left right first second =>
    obtain ⟨reach, leftFits, rightFits⟩ := fits_binary.mp fit
    rcases List.mem_append.mp (outside_binary operator left right ▸ isOne) with inLeft | others
    · exact Nat.le_trans reach (first leftFits inLeft)
    · rcases List.mem_cons.mp others with rfl | inRight
      · exact reach
      · -- On the right one level more than that of the operator is asked for.
        have tight := second rightFits inRight
        omega

/-! ## Two ways to divide a fragment -/

/-- Where two pairs of phrases with a lexeme between them are written alike, the pairs agree, or
the one pair parts behind the other. -/
theorem divide {left right left' right' : Phrase} {lexeme lexeme' : Lexeme}
    (same : left.fragment ++ lexeme :: right.fragment =
      left'.fragment ++ lexeme' :: right'.fragment) :
    (left.fragment = left'.fragment ∧ lexeme = lexeme' ∧ right.fragment = right'.fragment) ∨
      (∃ middle, left'.fragment = left.fragment ++ lexeme :: middle ∧
        right.fragment = middle ++ lexeme' :: right'.fragment) ∨
      ∃ middle, left.fragment = left'.fragment ++ lexeme' :: middle ∧
        right'.fragment = middle ++ lexeme :: right.fragment := by
  rcases List.append_eq_append_iff.mp same with
    ⟨between, isLeft, isRight⟩ | ⟨between, isLeft, isRight⟩
  · cases between with
    | nil =>
      simp only [List.append_nil, List.nil_append, List.cons.injEq] at isLeft isRight
      exact .inl ⟨isLeft.symm, isRight.1, isRight.2⟩
    | cons first middle =>
      obtain ⟨rfl, isRest⟩ := List.cons.inj isRight
      exact .inr (.inl ⟨middle, isLeft, isRest⟩)
  · cases between with
    | nil =>
      simp only [List.append_nil, List.nil_append, List.cons.injEq] at isLeft isRight
      exact .inl ⟨isLeft, isRight.1.symm, isRight.2.symm⟩
    | cons first middle =>
      obtain ⟨rfl, isRest⟩ := List.cons.inj isRight
      exact .inr (.inr ⟨middle, isLeft, isRest⟩)

/-- The lexemes at which two divisions part both stand outside of all brackets, each in the
phrase of the other division that it falls into. -/
theorem mem_outside_of_divided {left right left' right' : Phrase} {lexeme lexeme' : Lexeme}
    (plain : lexeme.turn = 0) (plain' : lexeme'.turn = 0) {middle : Fragment}
    (isLeft : left'.fragment = left.fragment ++ lexeme :: middle)
    (isRight : right.fragment = middle ++ lexeme' :: right'.fragment) :
    lexeme ∈ outside 0 left'.fragment ∧ lexeme' ∈ outside 0 right.fragment := by
  -- Both phrases in front close their brackets, so what lies between the two lexemes does.
  have balanced : depth middle = 0 := by
    have depths := congrArg depth isLeft
    simpa [plain] using depths.symm
  constructor
  · rw [isLeft, outside_append, depth_fragment, Int.zero_add, outside_cons plain]
    simp
  · rw [isRight, outside_append, balanced, Int.zero_add, outside_cons plain']
    simp

/-- What is written between brackets with a separator can be divided in one way. -/
theorem divide_separated {left right left' right' : Phrase}
    (same : left.fragment ++ .comma :: right.fragment =
      left'.fragment ++ .comma :: right'.fragment) :
    left.fragment = left'.fragment ∧ right.fragment = right'.fragment := by
  rcases divide same with
    ⟨isLeft, -, isRight⟩ | ⟨middle, isLeft, isRight⟩ | ⟨middle, isLeft, isRight⟩
  · exact ⟨isLeft, isRight⟩
  -- The other comma would stand outside of all brackets of a phrase.
  · have level := one_le_level_of_mem_outside (mem_outside_of_divided rfl rfl isLeft isRight).1
    exact absurd level (by decide)
  · have level := one_le_level_of_mem_outside (mem_outside_of_divided rfl rfl isLeft isRight).1
    exact absurd level (by decide)

/-- Two fitting phrases with a binary operator are divided at the same one. -/
theorem divide_fitting {operator operator' : Binary} {left right left' right' : Phrase}
    (fit : (binary operator left right).fits .sql 1 = true)
    (fit' : (binary operator' left' right').fits .sql 1 = true)
    (same : (binary operator left right).fragment = (binary operator' left' right').fragment) :
    left.fragment = left'.fragment ∧ operator = operator' ∧ right.fragment = right'.fragment := by
  -- The operator that the other phrase divides at would bind both more tightly and more loosely.
  have apart : ∀ {operator operator' : Binary} {left right left' right' : Phrase},
      (binary operator left right).fits .sql 1 = true →
      (binary operator' left' right').fits .sql 1 = true → ∀ middle : Fragment,
      left'.fragment = left.fragment ++ operator.lexeme :: middle →
      right.fragment ≠ middle ++ operator'.lexeme :: right'.fragment := by
    intro operator operator' left right left' right' fit fit' middle isLeft isRight
    obtain ⟨-, -, rightFits⟩ := fits_binary.mp fit
    obtain ⟨-, leftFits, -⟩ := fits_binary.mp fit'
    obtain ⟨inLeft, inRight⟩ :=
      mem_outside_of_divided operator.turn_lexeme operator'.turn_lexeme isLeft isRight
    have below : ∀ operator : Binary, operator.lexeme.level < 9 := by
      intro operator
      cases operator <;> simp [Binary.lexeme, Lexeme.level]
    have looser := level_le_of_mem_outside leftFits inLeft (below operator)
    have tighter := level_le_of_mem_outside rightFits inRight (below operator')
    simp only [Precedence.sql] at looser tighter
    omega
  rw [fragment, fragment] at same
  rcases divide same with ⟨isLeft, isOperator, isRight⟩ | ⟨middle, isLeft, isRight⟩ |
    ⟨middle, isLeft, isRight⟩
  · exact ⟨isLeft, Binary.lexeme_injective isOperator, isRight⟩
  · exact absurd isRight (apart fit fit' middle isLeft)
  · exact absurd isRight (apart fit' fit middle isLeft)

/-- An operator in front of a phrase and one in the middle of it are told apart. -/
theorem fragment_unary_ne_binary {operator : Unary} {inner : Phrase} {operator' : Binary}
    {left right : Phrase} (fit : (unary operator inner).fits .sql 1 = true)
    (fit' : (binary operator' left right).fits .sql 1 = true) :
    (unary operator inner).fragment ≠ (binary operator' left right).fragment := by
  intro same
  obtain ⟨-, innerFits⟩ := fits_unary.mp fit
  obtain ⟨-, leftFits, -⟩ := fits_binary.mp fit'
  have outer := congrArg (outside 0) same
  rw [outside_unary, outside_binary] at outer
  cases inLeft : outside 0 left.fragment with
  | nil =>
    rw [inLeft, List.nil_append] at outer
    have heads := (List.cons.inj outer).1
    cases operator <;> cases operator' <;> contradiction
  | cons first rest =>
    rw [inLeft, List.cons_append] at outer
    obtain ⟨isFirst, isRest⟩ := List.cons.inj outer
    have looser : operator'.lexeme.level ≤ operator.lexeme.level :=
      level_le_of_mem_outside leftFits (by simp [inLeft, isFirst])
        (by cases operator <;> decide)
    have tighter : operator.operandLevel ≤ operator'.lexeme.level :=
      level_le_of_mem_outside innerFits (by simp [isRest])
        (by cases operator' <;> simp [Binary.lexeme, Lexeme.level])
    -- `NOT` alone may stand under itself, and no binary operator is on its level.
    cases operator <;> cases operator' <;> simp [Unary.operandLevel, Unary.lexeme, Binary.lexeme,
      Lexeme.level] at looser tighter

theorem fragment_ne_distinct (phrase : Phrase) (rest : Fragment) :
    phrase.fragment ++ [.closing] ≠ .distinct :: rest := by
  intro same
  have outer := congrArg (outside 0) same
  rw [outside_append, outside_cons rfl] at outer
  cases inPhrase : outside 0 phrase.fragment with
  | nil => simp [inPhrase, outside, Lexeme.turn] at outer
  | cons first others =>
    rw [inPhrase, List.cons_append] at outer
    have isFirst := (List.cons.inj outer).1
    have isOutside : first ∈ outside 0 phrase.fragment := by simp [inPhrase]
    -- The phrase would begin with the `DISTINCT`.
    have level := one_le_level_of_mem_outside isOutside
    rw [isFirst] at level
    exact absurd level (by decide)

theorem count_inj {distinct distinct' : Bool} {argument argument' : Phrase}
    (same : (count distinct argument).fragment = (count distinct' argument').fragment) :
    distinct = distinct' ∧ argument.fragment = argument'.fragment := by
  cases distinct <;> cases distinct' <;>
    simp only [fragment, Bool.false_eq_true, if_false, if_true, List.cons_append,
      List.nil_append, List.cons.injEq, true_and] at same
  · exact ⟨rfl, List.append_cancel_right same⟩
  · exact absurd same (fragment_ne_distinct _ _)
  · exact absurd same.symm (fragment_ne_distinct _ _)
  · exact ⟨rfl, List.append_cancel_right same⟩

theorem group_inj {inner inner' : Phrase}
    (same : (group inner).fragment = (group inner').fragment) :
    inner.fragment = inner'.fragment := by
  simp only [fragment, Fragment.parenthesized, List.cons_append, List.cons.injEq, true_and] at same
  exact List.append_cancel_right same

theorem power_inj {base exponent base' exponent' : Phrase}
    (same : (power base exponent).fragment = (power base' exponent').fragment) :
    base.fragment = base'.fragment ∧ exponent.fragment = exponent'.fragment := by
  simp only [fragment, List.append_assoc, List.cons_append, List.nil_append, List.cons.injEq,
    true_and] at same
  rw [← List.cons_append, ← List.append_assoc, ← List.cons_append, ← List.append_assoc] at same
  exact divide_separated (List.append_cancel_right same)

/-- What two phrases have in common that are written alike. -/
inductive Alike : Phrase → Phrase → Prop
  | operand (lexeme : Lexeme) (stands : lexeme.isOperand = true) :
      Alike (.operand lexeme stands) (.operand lexeme stands)
  | group {inner inner' : Phrase} (same : inner.fragment = inner'.fragment) :
      Alike (.group inner) (.group inner')
  | count (distinct : Bool) {argument argument' : Phrase}
      (same : argument.fragment = argument'.fragment) :
      Alike (.count distinct argument) (.count distinct argument')
  | power {base exponent base' exponent' : Phrase} (sameBase : base.fragment = base'.fragment)
      (sameExponent : exponent.fragment = exponent'.fragment) :
      Alike (.power base exponent) (.power base' exponent')
  | unary (operator : Unary) {inner inner' : Phrase} (same : inner.fragment = inner'.fragment) :
      Alike (.unary operator inner) (.unary operator inner')
  | binary {operator operator' : Binary} {left right left' right' : Phrase}
      (same : (Phrase.binary operator left right).fragment =
        (Phrase.binary operator' left' right').fragment) :
      Alike (.binary operator left right) (.binary operator' left' right')
  | unaryBinary {operator : Unary} {inner : Phrase} {operator' : Binary} {left right : Phrase}
      (same : (Phrase.unary operator inner).fragment =
        (Phrase.binary operator' left right).fragment) :
      Alike (.unary operator inner) (.binary operator' left right)
  | binaryUnary {operator : Binary} {left right : Phrase} {operator' : Unary} {inner : Phrase}
      (same : (Phrase.binary operator left right).fragment =
        (Phrase.unary operator' inner).fragment) :
      Alike (.binary operator left right) (.unary operator' inner)

/-- Whether a phrase has no operator outside of all brackets. -/
def isClosed : Phrase → Bool
  | operand _ _ | group _ | count _ _ | power _ _ => true
  | unary _ _ | binary _ _ _ => false

theorem isClosed_iff (phrase : Phrase) :
    phrase.isClosed = true ↔ ∀ lexeme ∈ outside 0 phrase.fragment, lexeme.level = 9 := by
  cases phrase with
  | operand lexeme stands => simp [isClosed, Lexeme.level_of_isOperand stands]
  | group | count | power => simp [isClosed, Lexeme.level]
  | unary operator => cases operator <;> simp [isClosed, Unary.lexeme, Lexeme.level]
  | binary operator =>
    cases operator <;> simp [isClosed, or_imp, forall_and, Binary.lexeme, Lexeme.level]

theorem isClosed_eq_of_fragment {phrase phrase' : Phrase}
    (same : phrase.fragment = phrase'.fragment) : phrase.isClosed = phrase'.isClosed := by
  rw [Bool.eq_iff_iff, isClosed_iff, isClosed_iff, same]

/-- All but phrases with operators are told apart by what stands outside of all brackets. -/
theorem alike {phrase phrase' : Phrase} (same : phrase.fragment = phrase'.fragment) :
    Alike phrase phrase' := by
  have outer := congrArg (outside 0) same
  have closed := isClosed_eq_of_fragment same
  -- `closed` parts operators from all else, and what else there is differs outside of all brackets.
  cases phrase with
  | operand lexeme stands =>
    cases phrase' with
    | operand lexeme' stands' =>
      obtain rfl := (List.cons.inj same).1
      exact .operand lexeme stands
    | group => simp at outer
    | count | power =>
      simp only [outside_operand, outside_count, outside_power, List.cons.injEq] at outer
      simp [outer.1, Lexeme.isOperand] at stands
    | unary | binary => contradiction
  | group inner =>
    cases phrase' with
    | group => exact .group (group_inj same)
    | operand | count | power => simp at outer
    | unary | binary => contradiction
  | count distinct argument =>
    cases phrase' with
    | count distinct' argument' =>
      obtain ⟨rfl, sameArgument⟩ := count_inj same
      exact .count distinct sameArgument
    | operand lexeme stands =>
      simp only [outside_operand, outside_count, List.cons.injEq] at outer
      simp [← outer.1, Lexeme.isOperand] at stands
    | group | power => simp at outer
    | unary | binary => contradiction
  | power base exponent =>
    cases phrase' with
    | power => exact .power (power_inj same).1 (power_inj same).2
    | operand lexeme stands =>
      simp only [outside_operand, outside_power, List.cons.injEq] at outer
      simp [← outer.1, Lexeme.isOperand] at stands
    | group | count => simp at outer
    | unary | binary => contradiction
  | unary operator inner =>
    cases phrase' with
    | unary operator' inner' =>
      obtain ⟨isOperator, sameInner⟩ := List.cons.inj same
      obtain rfl := Unary.lexeme_injective isOperator
      exact .unary operator sameInner
    | binary => exact .unaryBinary same
    | operand | group | count | power => contradiction
  | binary operator left right =>
    cases phrase' with
    | unary => exact .binaryUnary same
    | binary => exact .binary same
    | operand | group | count | power => contradiction

/-! ## One reading -/

/-- Two fitting phrases that are written alike are the same. -/
theorem eq_of_fits {phrase phrase' : Phrase} (fit : phrase.fits .sql 1 = true)
    (fit' : phrase'.fits .sql 1 = true) (same : phrase.fragment = phrase'.fragment) :
    phrase = phrase' := by
  induction phrase generalizing phrase' with
  | operand lexeme stands =>
    cases alike same
    rfl
  | group inner ih =>
    cases alike same with
    | group sameInner => rw [ih (fits_group.mp fit) (fits_group.mp fit') sameInner]
  | count distinct argument ih =>
    cases alike same with
    | count _ sameArgument => rw [ih (fits_count.mp fit) (fits_count.mp fit') sameArgument]
  | power base exponent first second =>
    obtain ⟨baseFits, exponentFits⟩ := fits_power.mp fit
    cases alike same with
    | power sameBase sameExponent =>
      obtain ⟨baseFits', exponentFits'⟩ := fits_power.mp fit'
      rw [first baseFits baseFits' sameBase, second exponentFits exponentFits' sameExponent]
  | unary operator inner ih =>
    have loosen : 1 ≤ operator.operandLevel := by cases operator <;> decide
    cases alike same with
    | unary _ sameInner =>
      rw [ih (fits_mono loosen (fits_unary.mp fit).2) (fits_mono loosen (fits_unary.mp fit').2)
        sameInner]
    | unaryBinary same => exact absurd same (fragment_unary_ne_binary fit fit')
  | binary operator left right first second =>
    have loosen : 1 ≤ Precedence.sql operator := (fits_binary.mp fit).1
    cases alike same with
    | binaryUnary same => exact absurd same.symm (fragment_unary_ne_binary fit' fit)
    | binary same =>
      obtain ⟨sameLeft, rfl, sameRight⟩ := divide_fitting fit fit' same
      obtain ⟨-, leftFits, rightFits⟩ := fits_binary.mp fit
      obtain ⟨-, leftFits', rightFits'⟩ := fits_binary.mp fit'
      rw [first (fits_mono loosen leftFits) (fits_mono loosen leftFits') sameLeft,
        second (fits_mono (Nat.le_add_left 1 _) rightFits)
          (fits_mono (Nat.le_add_left 1 _) rightFits') sameRight]

/-- A phrase and its tree differ in brackets only. -/
theorem solid_tree (phrase : Phrase) : solid phrase.tree.fragment = solid phrase.fragment := by
  induction phrase with
  | operand => rfl
  | group inner ih =>
    simpa [tree, fragment, Fragment.parenthesized, solid_cons, Lexeme.turn] using ih
  | count distinct argument ih => cases distinct <;> simp [tree, fragment, solid_cons, ih]
  | power base exponent first second => simp [tree, fragment, solid_cons, first, second]
  | unary operator inner ih => simp [tree, fragment, solid_cons, ih]
  | binary operator left right first second => simp [tree, fragment, solid_cons, first, second]

/-- Where two phrases are written alike and have the same operators, they are divided alike, since
the operands in front have the same number of lexemes. -/
theorem divide_of_tree {operator : Binary} {left right left' right' : Phrase}
    (same : (binary operator left right).fragment = (binary operator left' right').fragment)
    (sameLeft : left.tree = left'.tree) :
    left.fragment = left'.fragment ∧ right.fragment = right'.fragment := by
  have equal : solid left.fragment = solid left'.fragment := by
    rw [← solid_tree, sameLeft, solid_tree]
  have longer : ∀ {first second middle : Fragment}, solid first = solid second →
      second ≠ first ++ operator.lexeme :: middle := by
    rintro first _ middle equal rfl
    simpa [solid_cons, Binary.turn_lexeme] using congrArg List.length equal
  rw [fragment, fragment] at same
  rcases divide same with ⟨isLeft, -, isRight⟩ | ⟨middle, isLeft, -⟩ | ⟨middle, isLeft, -⟩
  · exact ⟨isLeft, isRight⟩
  · exact absurd isLeft (longer equal)
  · exact absurd isLeft (longer equal.symm)

/-- What is written and the operators in it determine a phrase, whether it fits or not. -/
theorem eq_of_tree {phrase phrase' : Phrase} (same : phrase.fragment = phrase'.fragment)
    (sameTree : phrase.tree = phrase'.tree) : phrase = phrase' := by
  induction phrase generalizing phrase' with
  | operand lexeme stands =>
    cases alike same
    rfl
  | group inner ih =>
    cases alike same with
    | group sameInner => rw [ih sameInner sameTree]
  | count distinct argument ih =>
    cases alike same with
    | count _ sameArgument => rw [ih sameArgument (count.inj sameTree).2]
  | power base exponent first second =>
    cases alike same with
    | power sameBase sameExponent =>
      rw [first sameBase (power.inj sameTree).1, second sameExponent (power.inj sameTree).2]
  | unary operator inner ih =>
    cases alike same with
    | unary _ sameInner => rw [ih sameInner (unary.inj sameTree).2]
    | unaryBinary => contradiction
  | binary operator left right first second =>
    cases alike same with
    | binaryUnary => contradiction
    | binary same =>
      -- The trees give the operator, and the number of lexemes in front of it gives its place.
      obtain ⟨rfl, sameLeft, sameRight⟩ := binary.inj sameTree
      obtain ⟨isLeft, isRight⟩ := divide_of_tree same sameLeft
      rw [first isLeft sameLeft, second isRight sameRight]

end Phrase

/-- A fragment is read in one way. -/
theorem Reads.unique {level level' : Nat} {fragment : Fragment} {phrase phrase' : Phrase}
    (positive : 1 ≤ level) (positive' : 1 ≤ level') (reads : Reads level fragment phrase)
    (reads' : Reads level' fragment phrase') : phrase = phrase' :=
  Phrase.eq_of_fits (Phrase.fits_mono positive reads.fits) (Phrase.fits_mono positive' reads'.fits)
    (reads.written.trans reads'.written.symm)

theorem Denotes.unique {fragment : Fragment} {tree tree' : Phrase} (denotes : Denotes fragment tree)
    (denotes' : Denotes fragment tree') : tree = tree' := by
  obtain ⟨phrase, reads, rfl⟩ := denotes
  obtain ⟨phrase', reads', rfl⟩ := denotes'
  rw [reads.unique (Nat.le_refl 1) (Nat.le_refl 1) reads']

/-- SQL reads a phrase with the operators that it has exactly when it fits. -/
theorem Phrase.denotes_tree_iff (phrase : Phrase) :
    Denotes phrase.fragment phrase.tree ↔ phrase.fits .sql 1 = true := by
  constructor
  · rintro ⟨other, ⟨fit, same⟩, sameTree⟩
    rwa [← Phrase.eq_of_tree same sameTree]
  · intro fit
    exact ⟨phrase, ⟨fit, rfl⟩, rfl⟩

end CypherSql.Sql
