import CypherSql.Proofs.Sql.Phrases

/-! # Reading a phrase of another precedence

SQL binds its string test as loosely as a comparison, Cypher more tightly than all else.  So a
phrase that fits in Cypher may be read otherwise in SQL, but it is always read: its operators are
attached from left to right, each as far down as it binds more tightly than what stands there.
Nothing but string tests changes its place.

* `Phrase.attach`, `Phrase.append` — one more operand, and a whole phrase, behind a phrase.
* `Phrase.regroup` — what SQL reads in a phrase that fits in Cypher.
* `Phrase.regroup_reads` — it fits, and it is written alike.
* `Phrase.fits_sql_iff` — it is the phrase itself exactly where string tests stand apart.
-/

namespace CypherSql.Sql

theorem Binary.level_lexeme_le (operator : Binary) : operator.lexeme.level ≤ 6 := by
  cases operator <;> simp [Binary.lexeme, Lexeme.level]

theorem Precedence.sql_le_cypher (operator : Binary) :
    Precedence.sql operator ≤ Precedence.cypher operator := by
  cases operator <;> simp [Precedence.sql, Precedence.cypher, Binary.lexeme, Lexeme.level]

namespace Phrase

/-! ## Attaching operands -/

/-- Puts an operator and an operand without binary operators behind a phrase. -/
def attach (operator : Binary) (last : Phrase) : Phrase → Phrase
  | binary other left right =>
    if other.lexeme.level < operator.lexeme.level then
      .binary other left (attach operator last right)
    else .binary operator (.binary other left right) last
  | phrase => .binary operator phrase last

/-- Puts an operator and a phrase behind a phrase, one operand after the other. -/
def append (front : Phrase) (operator : Binary) : Phrase → Phrase
  | binary other left right => append (append front operator left) other right
  | last => attach operator last front

/-- Puts a sign in front of a phrase. -/
def negateFirst : Phrase → Phrase
  | binary operator left right => .binary operator (negateFirst left) right
  | phrase => .unary .negate phrase

def regroup : Phrase → Phrase
  | operand lexeme stands => .operand lexeme stands
  | group inner => .group inner.regroup
  | count distinct argument => .count distinct argument.regroup
  | power base exponent => .power base.regroup exponent.regroup
  | unary .not inner => .unary .not inner.regroup
  | unary .negate inner => inner.regroup.negateFirst
  | binary operator left right =>
    if operator.lexeme.level < 4 then .binary operator left.regroup right.regroup
    else append left.regroup operator right.regroup

/-! ## What is written -/

theorem fragment_attach (operator : Binary) (last phrase : Phrase) :
    (attach operator last phrase).fragment =
      phrase.fragment ++ operator.lexeme :: last.fragment := by
  fun_induction attach operator last phrase with
  | case1 other left right looser ih => simp [fragment, ih]
  | case2 => rfl
  | case3 => rfl

theorem fragment_append (front : Phrase) (operator : Binary) (phrase : Phrase) :
    (append front operator phrase).fragment =
      front.fragment ++ operator.lexeme :: phrase.fragment := by
  fun_induction append front operator phrase with
  | case1 front operator other left right first second => simp [fragment, first, second]
  | case2 => exact fragment_attach _ _ _

theorem fragment_negateFirst (phrase : Phrase) :
    phrase.negateFirst.fragment = .negate :: phrase.fragment := by
  fun_induction negateFirst phrase with
  | case1 operator left right ih => simp [fragment, ih]
  | case2 => rfl

theorem fragment_regroup (phrase : Phrase) : phrase.regroup.fragment = phrase.fragment := by
  fun_induction regroup phrase with
  | case1 => rfl
  | case2 inner ih => simp [fragment, ih]
  | case3 distinct argument ih => simp [fragment, ih]
  | case4 base exponent first second => simp [fragment, first, second]
  | case5 inner ih => simp [fragment, ih]
  | case6 inner ih =>
    rw [fragment_negateFirst, ih]
    rfl
  | case7 operator left right _ first second => simp [fragment, first, second]
  | case8 operator left right _ first second =>
    rw [fragment_append, first, second]
    rfl

/-! ## What fits -/

/-- The operand that is written first. -/
def first : Phrase → Phrase
  | binary _ left _ => left.first
  | phrase => phrase

theorem first_attach (operator : Binary) (last phrase : Phrase) :
    (attach operator last phrase).first = phrase.first := by
  fun_induction attach operator last phrase with
  | case1 => rfl
  | case2 => rfl
  | case3 => rfl

theorem first_append (front : Phrase) (operator : Binary) (phrase : Phrase) :
    (append front operator phrase).first = front.first := by
  fun_induction append front operator phrase with
  | case1 front operator other left right first second => rw [second, first]
  | case2 => exact first_attach _ _ _

/-- What has no binary operator and is no negation binds more tightly than all of them. -/
theorem fits_of_not_binary {phrase : Phrase} {level : Nat}
    (other : ∀ operator left right, phrase ≠ binary operator left right) (tight : 4 ≤ level)
    (fit : phrase.fits .sql level = true) : phrase.fits .sql 7 = true := by
  cases phrase with
  | operand | group | count | power => exact fit
  | unary sign inner =>
    obtain ⟨reach, innerFits⟩ := fits_unary.mp fit
    cases sign with
    | not => exact absurd (Nat.le_trans tight reach) (by decide)
    | negate => exact fits_unary.mpr ⟨Nat.le_refl 7, innerFits⟩
  | binary => exact absurd rfl (other _ _ _)

/-- An operator finds its place in a phrase of comparisons and arithmetic. -/
theorem attach_fits {operator : Binary} {last phrase : Phrase} {level : Nat} (tight : 4 ≤ level)
    (reach : level ≤ operator.lexeme.level) (fit : phrase.fits .sql level = true)
    (lastFits : last.fits .sql 7 = true) :
    (attach operator last phrase).fits .sql level = true := by
  have below := Binary.level_lexeme_le operator
  have lastBehind : last.fits .sql (operator.lexeme.level + 1) = true :=
    fits_mono (Nat.succ_le_succ below) lastFits
  fun_induction attach operator last phrase generalizing level with
  | case1 other left right looser ih =>
    obtain ⟨otherReach, leftFits, rightFits⟩ := fits_binary.mp fit
    -- The operand goes into the right operand, where one level more is asked for.
    have deeper : 4 ≤ Precedence.sql other + 1 :=
      Nat.le_succ_of_le (Nat.le_trans tight otherReach)
    exact fits_binary.mpr ⟨otherReach, leftFits, ih deeper looser rightFits⟩
  | case2 other left right tighter =>
    obtain ⟨_, leftFits, rightFits⟩ := fits_binary.mp fit
    -- The phrase as a whole becomes the left operand.
    have whole : (binary other left right).fits .sql operator.lexeme.level = true :=
      fits_binary.mpr ⟨Nat.le_of_not_lt tighter, leftFits, rightFits⟩
    exact fits_binary.mpr ⟨reach, whole, lastBehind⟩
  | case3 phrase other =>
    have front := fits_of_not_binary other tight fit
    exact fits_binary.mpr ⟨reach, fits_mono (Nat.le_succ_of_le below) front, lastBehind⟩

theorem append_fits {front phrase : Phrase} {operator : Binary}
    (tight : 4 ≤ operator.lexeme.level) (frontFits : front.fits .sql 4 = true)
    (fit : phrase.fits .sql 4 = true) : (append front operator phrase).fits .sql 4 = true := by
  fun_induction append front operator phrase with
  | case1 front operator other left right first second =>
    obtain ⟨otherTight, leftFits, rightFits⟩ := fits_binary.mp fit
    -- The left operand comes first, and the right one behind what this gives.
    have between := first tight frontFits (fits_mono otherTight leftFits)
    exact second otherTight between (fits_mono (Nat.le_succ_of_le otherTight) rightFits)
  | case2 front operator last other =>
    exact attach_fits (Nat.le_refl 4) tight frontFits (fits_of_not_binary other (Nat.le_refl 4) fit)

/-- A sign may stand in front of a phrase that begins with neither a sign nor a negation. -/
theorem negateFirst_fits {phrase : Phrase} {level : Nat} (loose : level ≤ 7)
    (fit : phrase.fits .sql level = true) (firstFits : phrase.first.fits .sql 8 = true) :
    phrase.negateFirst.fits .sql level = true := by
  fun_induction negateFirst phrase generalizing level with
  | case1 operator left right ih =>
    obtain ⟨reach, leftFits, rightFits⟩ := fits_binary.mp fit
    have below : operator.lexeme.level ≤ 7 := Nat.le_succ_of_le (Binary.level_lexeme_le operator)
    exact fits_binary.mpr ⟨reach, ih below leftFits firstFits, rightFits⟩
  | case2 phrase other =>
    have tight : phrase.fits .sql 8 = true := by
      cases phrase with
      | binary => exact absurd rfl (other _ _ _)
      | operand | group | count | power | unary => exact firstFits
    exact fits_unary.mpr ⟨loose, tight⟩

/-- What fits in Cypher is regrouped into what fits in SQL.  Where Cypher lets it stand behind a
sign, it does not begin with one. -/
theorem regroup_fits_and {phrase : Phrase} {level : Nat} (fit : phrase.fits .cypher level = true) :
    phrase.regroup.fits .sql (min level 4) = true ∧
      (8 ≤ level → phrase.regroup.first.fits .sql 8 = true) := by
  fun_induction regroup phrase generalizing level with
  | case1 => exact ⟨rfl, fun _ => rfl⟩
  | case2 inner ih =>
    have inside := (ih (fits_group.mp fit)).1
    exact ⟨inside, fun _ => inside⟩
  | case3 distinct argument ih =>
    have inside := (ih (fits_count.mp fit)).1
    exact ⟨inside, fun _ => inside⟩
  | case4 base exponent first second =>
    obtain ⟨baseFits, exponentFits⟩ := fits_power.mp fit
    have inside := (first baseFits).1
    have inside' := (second exponentFits).1
    exact ⟨fits_power.mpr ⟨inside, inside'⟩, fun _ => fits_power.mpr ⟨inside, inside'⟩⟩
  | case5 inner ih =>
    obtain ⟨reach, innerFits⟩ := fits_unary.mp fit
    have loose : level ≤ 3 := reach
    exact ⟨fits_unary.mpr ⟨by omega, (ih innerFits).1⟩, by omega⟩
  | case6 inner ih =>
    obtain ⟨reach, innerFits⟩ := fits_unary.mp fit
    have loose : level ≤ 7 := reach
    obtain ⟨inside, front⟩ := ih innerFits
    -- What stands behind a sign begins with no other one, so the sign goes to the first operand.
    have whole : inner.regroup.negateFirst.fits .sql 4 = true :=
      negateFirst_fits (by decide) inside (front (Nat.le_refl 8))
    exact ⟨fits_mono (Nat.min_le_right _ _) whole, by omega⟩
  | case7 operator left right loose first second =>
    -- `OR` and `AND` have the same place in both languages.
    have same : Precedence.cypher operator = operator.lexeme.level := by
      cases operator <;> first | rfl | exact absurd loose (by decide)
    obtain ⟨reach, leftFits, rightFits⟩ := fits_binary.mp fit
    rw [same] at reach leftFits rightFits
    have left' := (first leftFits).1
    have right' := (second rightFits).1
    rw [Nat.min_eq_left (by omega)] at left' right'
    exact ⟨fits_binary.mpr ⟨Nat.le_trans (Nat.min_le_left _ _) reach, left', right'⟩, by omega⟩
  | case8 operator left right tight first second =>
    have tight : 4 ≤ operator.lexeme.level := Nat.le_of_not_lt tight
    have tight' : 4 ≤ Precedence.cypher operator :=
      Nat.le_trans tight (Precedence.sql_le_cypher operator)
    obtain ⟨reach, leftFits, rightFits⟩ := fits_binary.mp fit
    obtain ⟨left', front⟩ := first leftFits
    have right' := (second rightFits).1
    rw [Nat.min_eq_right (by omega)] at left' right'
    refine ⟨fits_mono (Nat.min_le_right _ _) (append_fits tight left' right'), fun behindSign => ?_⟩
    -- Behind a sign there is no operator but a string test, and its subject comes first.
    rw [first_append]
    exact front (Nat.le_trans behindSign reach)

theorem regroup_fits {phrase : Phrase} {level : Nat} (fit : phrase.fits .cypher level = true) :
    phrase.regroup.fits .sql (min level 4) = true :=
  (regroup_fits_and fit).1

/-- SQL reads every phrase that fits in Cypher. -/
theorem regroup_reads {phrase : Phrase} {level : Nat} (fit : phrase.fits .cypher level = true) :
    Reads (min level 4) phrase.fragment phrase.regroup :=
  ⟨regroup_fits fit, fragment_regroup phrase⟩

/-! ## String tests -/

def isTest : Phrase → Bool
  | binary .like _ _ => true
  | _ => false

/-- No string test is an operand of a sign or of arithmetic, nor the right operand of a comparison
or of another test. -/
def testsStandApart : Phrase → Bool
  | operand _ _ => true
  | group inner => inner.testsStandApart
  | count _ argument => argument.testsStandApart
  | power base exponent => base.testsStandApart && exponent.testsStandApart
  | unary operator inner => inner.testsStandApart && (operator == .not || !inner.isTest)
  | binary operator left right =>
    left.testsStandApart && right.testsStandApart &&
      (operator.lexeme.level ≤ 4 || !left.isTest) && (operator.lexeme.level < 4 || !right.isTest)

theorem testsStandApart_binary {operator : Binary} {left right : Phrase} :
    (binary operator left right).testsStandApart = true ↔
      left.testsStandApart = true ∧ right.testsStandApart = true ∧
        (left.isTest = true → Precedence.sql operator ≤ 4) ∧
        (right.isTest = true → Precedence.sql operator + 1 ≤ 4) := by
  simp only [testsStandApart, Precedence.sql, Bool.and_eq_true, Bool.or_eq_true,
    decide_eq_true_eq, Bool.not_eq_true', and_assoc, Nat.lt_iff_add_one_le]
  cases left.isTest <;> cases right.isTest <;> simp

/-- SQL groups a phrase as Cypher does exactly where string tests stand apart. -/
theorem fits_sql_iff {phrase : Phrase} {level level' : Nat} (fit : phrase.fits .cypher level = true)
    (below : level' ≤ level) : phrase.fits .sql level' = true ↔
      phrase.testsStandApart = true ∧ (phrase.isTest = true → level' ≤ 4) := by
  induction phrase generalizing level level' with
  | operand => simp [fits, testsStandApart, isTest]
  | group inner ih =>
    rw [fits_group, ih (fits_group.mp fit) (Nat.le_refl 1)]
    simp [testsStandApart, isTest]
  | count distinct argument ih =>
    rw [fits_count, ih (fits_count.mp fit) (Nat.le_refl 1)]
    simp [testsStandApart, isTest]
  | power base exponent first second =>
    obtain ⟨baseFits, exponentFits⟩ := fits_power.mp fit
    have base' := first baseFits (Nat.le_refl 1)
    have exponent' := second exponentFits (Nat.le_refl 1)
    rw [fits_power, base', exponent']
    simp [testsStandApart, isTest]
  | unary operator inner ih =>
    obtain ⟨reach, innerFits⟩ := fits_unary.mp fit
    rw [fits_unary, ih innerFits (Nat.le_refl _)]
    cases operator <;> simp [testsStandApart, isTest, Unary.operandLevel, Nat.le_trans below reach]
  | binary operator left right first second =>
    obtain ⟨reach, leftFits, rightFits⟩ := fits_binary.mp fit
    have looser := Precedence.sql_le_cypher operator
    -- A test alone is looser in SQL than in Cypher.
    have reach' : level' ≤ Precedence.sql operator ↔
        ((binary operator left right).isTest = true → level' ≤ 4) := by
      cases operator with
      | like => exact ⟨fun reach _ => reach, fun reach => reach rfl⟩
      | or | and | compare | add | multiply =>
        exact iff_of_true (Nat.le_trans below reach) fun isTest => absurd isTest Bool.false_ne_true
    rw [fits_binary, first leftFits looser, second rightFits (Nat.succ_le_succ looser), reach',
      testsStandApart_binary]
    constructor
    · rintro ⟨whole, ⟨leftApart, leftLoose⟩, rightApart, rightLoose⟩
      exact ⟨⟨leftApart, rightApart, leftLoose, rightLoose⟩, whole⟩
    · rintro ⟨⟨leftApart, rightApart, leftLoose, rightLoose⟩, whole⟩
      exact ⟨whole, ⟨leftApart, leftLoose⟩, rightApart, rightLoose⟩

end Phrase

end CypherSql.Sql
