import CypherSql.Proofs.Sql.Readings
import CypherSql.Proofs.Sql.Regrouping

/-! # The truth of a reading

SQL reads `OR`, `AND` and `NOT` as they are written in Cypher, so what is put together by them is
true in the same cases, whatever is true of the fragments between them.

* `Phrase.truth` — whether a phrase holds, where it is known which other fragments do.
* `Phrase.truth_regroup` — regrouping changes nothing about it.
* `reads_conjunction` — phrases that bind as tightly as `AND` can be joined by it.
-/

namespace CypherSql.Sql

namespace Phrase

/-- Whether a phrase holds.  Everything but `OR`, `AND`, `NOT` and parentheses holds as a whole or
does not. -/
def truth (holds : Fragment → Bool) : Phrase → Bool
  | group inner => inner.truth holds
  | unary .not inner => !inner.truth holds
  | binary .or left right => left.truth holds || right.truth holds
  | binary .and left right => left.truth holds && right.truth holds
  | phrase => holds phrase.fragment

variable {holds : Fragment → Bool}

/-! ## Regrouping -/

/-- A phrase of comparisons and arithmetic holds as a whole or does not. -/
theorem truth_of_fits {precedence : Precedence} {phrase : Phrase}
    (looser : ∀ operator, 4 ≤ precedence operator → operator ≠ .or ∧ operator ≠ .and)
    (other : ∀ inner, phrase ≠ group inner) (fit : phrase.fits precedence 4 = true) :
    phrase.truth holds = holds phrase.fragment := by
  cases phrase with
  | operand | count | power => rfl
  | group => exact absurd rfl (other _)
  | unary operator inner =>
    cases operator with
    | not => exact absurd (fits_unary.mp fit).1 (by decide)
    | negate => rfl
  | binary operator left right =>
    obtain ⟨notOr, notAnd⟩ := looser operator (fits_binary.mp fit).1
    cases operator with
    | or => contradiction
    | and => contradiction
    | compare | like | add | multiply => rfl

theorem sql_looser (operator : Binary) (tight : 4 ≤ Precedence.sql operator) :
    operator ≠ .or ∧ operator ≠ .and := by
  constructor <;> rintro rfl <;> exact absurd tight (by decide)

theorem cypher_looser (operator : Binary) (tight : 4 ≤ Precedence.cypher operator) :
    operator ≠ .or ∧ operator ≠ .and := by
  constructor <;> rintro rfl <;> exact absurd tight (by decide)

theorem attach_ne_group (operator : Binary) (last phrase inner : Phrase) :
    attach operator last phrase ≠ group inner := by
  fun_cases attach operator last phrase <;> exact Phrase.noConfusion

theorem append_ne_group (front : Phrase) (operator : Binary) (phrase inner : Phrase) :
    append front operator phrase ≠ group inner := by
  fun_induction append front operator phrase with
  | case1 _ _ _ _ _ _ second => exact second
  | case2 => exact attach_ne_group _ _ _ _

theorem negateFirst_ne_group (phrase inner : Phrase) : phrase.negateFirst ≠ group inner := by
  fun_cases negateFirst phrase <;> exact Phrase.noConfusion

theorem truth_regroup {phrase : Phrase} {level : Nat} (fit : phrase.fits .cypher level = true) :
    phrase.regroup.truth holds = phrase.truth holds := by
  fun_induction regroup phrase generalizing level with
  | case1 => rfl
  | case2 inner ih => exact ih (fits_group.mp fit)
  | case3 distinct argument _ => exact congrArg holds (fragment_regroup (count distinct argument))
  | case4 base exponent _ _ => exact congrArg holds (fragment_regroup (power base exponent))
  | case5 inner ih =>
    exact congrArg (!·) (ih (fits_unary.mp fit).2)
  | case6 inner ih =>
    -- From here on nothing is a formula: both sides hold as a whole, and they are written alike.
    have again : (unary .negate inner).fits .cypher 4 = true :=
      fits_unary.mpr ⟨by decide, (fits_unary.mp fit).2⟩
    rw [truth_of_fits sql_looser (negateFirst_ne_group _) (regroup_fits again),
      fragment_negateFirst, fragment_regroup]
    rfl
  | case7 operator left right loose first second =>
    obtain ⟨_, leftFits, rightFits⟩ := fits_binary.mp fit
    have first := first leftFits
    have second := second rightFits
    cases operator with
    | or | and => rw [truth, truth, first, second]
    | compare | like | add | multiply => simp [Binary.lexeme, Lexeme.level] at loose
  | case8 operator left right tight _ _ =>
    have tight : 4 ≤ operator.lexeme.level := Nat.le_of_not_lt tight
    have again : (binary operator left right).fits .cypher 4 = true :=
      fits_binary.mpr
        ⟨Nat.le_trans tight (Precedence.sql_le_cypher operator), (fits_binary.mp fit).2⟩
    have whole :
        (binary operator left right).regroup = append left.regroup operator right.regroup :=
      if_neg (Nat.not_lt.mpr tight)
    have fits := regroup_fits again
    rw [whole] at fits
    rw [truth_of_fits sql_looser (append_ne_group _ _ _) fits, fragment_append, fragment_regroup,
      fragment_regroup]
    cases operator with
    | or | and => simp [Binary.lexeme, Lexeme.level] at tight
    | compare | like | add | multiply => rfl

/-! ## Conjunctions -/

/-- Puts a phrase with its operands of `AND` behind another phrase. -/
def both (front : Phrase) : Phrase → Phrase
  | binary .and left right => binary .and (both front left) right
  | phrase => binary .and front phrase

theorem fragment_both (front phrase : Phrase) :
    (both front phrase).fragment = front.fragment ++ .and :: phrase.fragment := by
  fun_induction both front phrase with
  | case1 left right ih => simp [fragment, ih]
  | case2 => rfl

theorem truth_both (front phrase : Phrase) :
    (both front phrase).truth holds = (front.truth holds && phrase.truth holds) := by
  fun_induction both front phrase with
  | case1 left right ih => rw [truth, truth, ih, Bool.and_assoc]
  | case2 => rfl

theorem both_fits {front phrase : Phrase} (frontFits : front.fits .sql 2 = true)
    (fit : phrase.fits .sql 2 = true) : (both front phrase).fits .sql 2 = true := by
  fun_induction both front phrase with
  | case1 left right ih =>
    obtain ⟨reach, leftFits, rightFits⟩ := fits_binary.mp fit
    exact fits_binary.mpr ⟨reach, ih leftFits, rightFits⟩
  | case2 phrase other =>
    refine fits_binary.mpr ⟨Nat.le_refl 2, frontFits, ?_⟩
    cases phrase with
    | operand | group | count | power => exact fit
    | unary operator inner =>
      have above : 3 ≤ operator.level := by cases operator <;> decide
      exact fits_unary.mpr ⟨above, (fits_unary.mp fit).2⟩
    | binary operator left right =>
      obtain ⟨reach, inside⟩ := fits_binary.mp fit
      have above : 3 ≤ Precedence.sql operator := by
        cases operator with
        | or => exact absurd reach (by decide)
        | and => exact absurd rfl (other _ _)
        | compare | like | add | multiply => simp [Precedence.sql, Binary.lexeme, Lexeme.level]
      exact fits_binary.mpr ⟨above, inside⟩

/-- Phrases that bind as tightly as `AND`, joined by it, are read as their conjunction. -/
theorem reads_conjunction {first : Phrase} {rest : List Phrase}
    (fit : ∀ phrase ∈ first :: rest, phrase.fits .sql 2 = true) :
    ∃ reading, Reads 2 (.joined .and ((first :: rest).map fragment)) reading ∧
      ∀ holds, reading.truth holds = (first :: rest).all fun phrase => phrase.truth holds := by
  induction rest generalizing first with
  | nil =>
    refine ⟨first, ⟨fit first List.mem_cons_self, ?_⟩, fun holds => ?_⟩
    · simp [Fragment.joined]
    · simp
  | cons second rest ih =>
    obtain ⟨firstFits, restFit⟩ := List.forall_mem_cons.mp fit
    obtain ⟨secondFits, restFit⟩ := List.forall_mem_cons.mp restFit
    -- The second phrase goes behind the first one, and the others behind both.
    obtain ⟨reading, reads, holdsAll⟩ :=
      ih (List.forall_mem_cons.mpr ⟨both_fits firstFits secondFits, restFit⟩)
    refine ⟨reading, ⟨reads.fits, ?_⟩, fun holds => ?_⟩
    · rw [reads.written]
      simp [Fragment.joined_cons, fragment_both]
    · rw [holdsAll]
      simp [truth_both, Bool.and_assoc]

end Phrase

/-- What is read as tightly as `AND` can stand anywhere in a conjunction, and the conjunction holds
where it and all others do. -/
theorem reads_among {fragment : Fragment} {own : Phrase} (reads : Reads 2 fragment own)
    {before after : List Phrase} (fit : ∀ other ∈ before ++ after, other.fits .sql 2 = true) :
    ∃ reading,
      (∀ other, Reads 1 (.joined .and (before.map Phrase.fragment ++
        fragment :: after.map Phrase.fragment)) other ↔ other = reading) ∧
      ∀ holds, reading.truth holds = ((before.all fun other => other.truth holds) &&
        own.truth holds && after.all fun other => other.truth holds) := by
  have allFit : ∀ phrase ∈ before ++ own :: after, phrase.fits .sql 2 = true := by
    intro phrase isOne
    rcases List.mem_append.mp isOne with inFront | isOwn
    · exact fit phrase (List.mem_append_left _ inFront)
    · rcases List.mem_cons.mp isOwn with rfl | behind
      · exact reads.fits
      · exact fit phrase (List.mem_append_right _ behind)
  obtain ⟨first, rest, all⟩ : ∃ first rest, before ++ own :: after = first :: rest :=
    List.exists_cons_of_ne_nil (by simp)
  rw [all] at allFit
  obtain ⟨reading, readsAll, holdsAll⟩ := Phrase.reads_conjunction allFit
  rw [← all] at readsAll holdsAll
  simp only [List.map_append, List.map_cons, reads.written] at readsAll
  have readsLoosely : Reads 1 _ reading :=
    ⟨Phrase.fits_mono (by decide) readsAll.fits, readsAll.written⟩
  refine ⟨reading, fun other => ⟨fun otherReads => ?_, ?_⟩, fun holds => ?_⟩
  · exact Reads.unique (Nat.le_refl 1) (Nat.le_refl 1) otherReads readsLoosely
  · rintro rfl
    exact readsLoosely
  · rw [holdsAll]
    simp [Bool.and_assoc]

end CypherSql.Sql
