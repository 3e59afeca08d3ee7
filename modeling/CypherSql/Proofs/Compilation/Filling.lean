import CypherSql.Proofs.Compilation.Levels
import CypherSql.Proofs.Compilation.Replacement
import CypherSql.Proofs.Sql.Places

/-! # Places for a name

An expression in which a place stands for a name is written as a shape.  What the expression is
written as with anything else for the name is the shape with its places filled: with the same as it
is where `WITH` gives it the name, and between parentheses where it is written for the name.

* `Filled` — what is written with places, and with the places filled.
* `congruent_filled` — all ways of writing fill what they are given.
* `names_asItIs`, `names_enclosed` — what the places of a name are filled with.
-/

namespace CypherSql.Compilation

open CypherSql.Cypher
open CypherSql.Graph (Slot)
open CypherSql.Sql (Binary Lexeme Phrase)

/-! ## Filling what is written -/

/-- What is written with its places filled.  A slot takes what it takes wherever it stands. -/
structure Filled (value enclosed : Phrase) (alone : Bool) (written filled : Written) : Prop where
  phrase : filled.phrase = written.phrase.fill value enclosed alone
  slot : filled.slot = written.slot
  aggregates : filled.aggregates = written.aggregates
  everywhere : written.slot.isSome = true →
    written.phrase.fill value enclosed false = written.phrase.fill value enclosed true

section

variable {value enclosed : Phrase}

theorem filled_ofParts {alone : Bool} {phrase phrase' : Phrase} {parts parts' : List Written}
    (fills : phrase' = phrase.fill value enclosed alone)
    (same : parts'.any Written.aggregates = parts.any Written.aggregates) :
    Filled value enclosed alone (.ofParts phrase parts) (.ofParts phrase' parts') :=
  ⟨fills, rfl, same, fun isSlot => nomatch isSlot⟩

theorem any_of_filled {alone : Bool} {parts parts' : List Written}
    (each : List.Forall₂ (Filled value enclosed alone) parts parts') :
    parts'.any Written.aggregates = parts.any Written.aggregates := by
  induction each with
  | nil => rfl
  | cons part _ ih => rw [List.any_cons, List.any_cons, part.aggregates, ih]

theorem filled_stepsFrom {level : Nat} {rest rest' : List (Binary × Written)}
    (each : List.Forall₂ (StepRelated (fun alone _ => Filled value enclosed alone) level) rest
      rest') (first : Phrase) :
    Written.stepsFrom (first.fill value enclosed false) rest' =
      (Written.stepsFrom first rest).fill value enclosed false := by
  induction each generalizing first with
  | nil => rfl
  | @cons entry entry' _ _ step _ ih =>
    obtain ⟨sameOperator, _, part⟩ := step
    rw [Written.stepsFrom_cons, Written.stepsFrom_cons, ← ih, sameOperator, part.phrase]
    rfl

theorem filled_powersFrom {rest rest' : List Written}
    (each : List.Forall₂ (Filled value enclosed false) rest rest') (first : Phrase) :
    Written.powersFrom (first.fill value enclosed false) rest' =
      (Written.powersFrom first rest).fill value enclosed false := by
  induction each generalizing first with
  | nil => rfl
  | cons part _ ih =>
    rw [Written.powersFrom_cons, Written.powersFrom_cons, ← ih, part.phrase]
    rfl

/-- Only a place that is the whole phrase can be alone in it. -/
theorem fill_stepsFrom {rest : List (Binary × Written)} (nonempty : rest ≠ []) (first : Phrase)
    (alone : Bool) : (Written.stepsFrom first rest).fill value enclosed alone =
      (Written.stepsFrom first rest).fill value enclosed false := by
  obtain ⟨step, _, left, outermost⟩ := Written.exists_stepsFrom_eq nonempty first
  rw [outermost]
  rfl

theorem fill_powersFrom {rest : List Written} (nonempty : rest ≠ []) (first : Phrase)
    (alone : Bool) : (Written.powersFrom first rest).fill value enclosed alone =
      (Written.powersFrom first rest).fill value enclosed false := by
  obtain ⟨base, exponent, outermost⟩ := Written.exists_powersFrom_eq nonempty first
  rw [outermost]
  rfl

theorem forall₂_filled {level : Nat} {rest rest' : List (Binary × Written)}
    (each : List.Forall₂ (StepRelated (fun alone _ => Filled value enclosed alone) level) rest
      rest') :
    List.Forall₂ (Filled value enclosed false) (rest.map (·.2)) (rest'.map (·.2)) := by
  rw [List.forall₂_map_left_iff, List.forall₂_map_right_iff]
  exact each.imp fun _ _ step => step.2.2

theorem congruent_filled : Congruent fun alone _ => Filled value enclosed alone where
  slot filled := by rw [filled.slot]
  aggregates filled := filled.aggregates
  looser _ filled := filled
  literal _ := filled_ofParts rfl rfl
  test _ := filled_ofParts rfl rfl
  countAll := ⟨rfl, rfl, rfl, fun isSlot => nomatch isSlot⟩
  steps := by
    intro alone level first first' rest rest' filled nonempty each
    refine filled_ofParts ?_ (any_of_filled (.cons filled (forall₂_filled each)))
    rw [filled.phrase, filled_stepsFrom each, fill_stepsFrom nonempty _ alone]
  behind operator filled :=
    filled_ofParts (congrArg (Phrase.unary operator) filled.phrase)
      (any_of_filled (.cons filled .nil))
  raised := by
    intro alone first first' rest rest' filled nonempty each
    refine filled_ofParts ?_ (any_of_filled (.cons filled each))
    rw [filled.phrase, filled_powersFrom each, fill_powersFrom nonempty _ alone]
  tested operator text filled :=
    filled_ofParts (congrArg (Phrase.binary .like · _) filled.phrase)
      (any_of_filled (.cons filled .nil))
  counted := by
    intro alone argument argument' distinct filled
    refine ⟨?_, rfl, rfl, fun isSlot => nomatch isSlot⟩
    simp only [Written.counted, filled.slot, Phrase.fill]
    split
    · rfl
    · rw [filled.phrase]
  enclosed filled _ :=
    filled_ofParts (congrArg Phrase.group filled.phrase) (any_of_filled (.cons filled .nil))
  slotted filled isSlot :=
    { filled with phrase := filled.phrase.trans (filled.everywhere isSlot).symm }

end

/-! ## A place for a name -/

def Written.blank (written : Written) : Written :=
  ⟨.operand .place rfl, written.slot, written.aggregates⟩

/-- What a name is written as between parentheses.  A slot needs none. -/
def Written.between (written : Written) : Phrase :=
  if written.slot.isSome then written.phrase else .group written.phrase

/-- What names are given, where one of them is given something else. -/
def withName (name : String) (written : Written) (given : String → Option Written) :
    String → Option Written :=
  fun other => if name = other then some written else given other

/-- The name is mentioned without properties. -/
def bare (name : String) : String → List String → Bool :=
  fun other path => other != name || path.isEmpty

theorem filled_self {value enclosed : Phrase} {alone : Bool} {written : Written}
    (without : Lexeme.place ∉ written.phrase.fragment) :
    Filled value enclosed alone written written where
  phrase := (Phrase.fill_eq_self without alone).symm
  slot := rfl
  aggregates := rfl
  everywhere _ := by rw [Phrase.fill_eq_self without, Phrase.fill_eq_self without]

section

variable {settings : Settings} {graph : Graph} {name : String} {given : String → Option Written}
  {value enclosed : Phrase} {written : Written}

theorem meaning_self (noSlot : graph.slot? name = none) (whole : Bool) :
    (Lexicon.meaning settings graph (withName name written given)).name? whole name [] =
      some written := by
  simp [Lexicon.meaning, withName, noSlot]

theorem meaning_other {other : String} (different : name ≠ other) (whole : Bool)
    (path : List String) :
    (Lexicon.meaning settings graph (withName name written given)).name? whole other path =
      (Lexicon.meaning settings graph given).name? whole other path := by
  simp [Lexicon.meaning, withName, different]

/-- A lexicon that differs only in a name gives what the places of that name are filled with. -/
theorem names_filled
    (fresh : ∀ other written, given other = some written →
      Lexeme.place ∉ written.phrase.fragment)
    (noSlot : graph.slot? name = none) {lexicon : Lexicon}
    (self : ∀ whole, Option.Rel (Filled value enclosed whole) (some written.blank)
      (lexicon.name? whole name []))
    (others : ∀ whole other path, name ≠ other → lexicon.name? whole other path =
      (Lexicon.meaning settings graph given).name? whole other path)
    (test : lexicon.test? = (Lexicon.meaning settings graph given).test?) :
    NamesRelated (fun whole _ => Filled value enclosed whole) (bare name)
      (.meaning settings graph (withName name written.blank given)) lexicon where
  name whole other path isBare := by
    by_cases same : name = other
    · subst same
      obtain rfl : path = [] := by simpa [bare] using isBare
      rw [meaning_self noSlot]
      exact self whole
    · rw [meaning_other same, others whole other path same]
      generalize isWritten : (Lexicon.meaning settings graph given).name? whole other path = result
      cases result with
      | none => exact .none
      | some found =>
        -- No other name is written with a place, so there is nothing to fill.
        exact .some (filled_self (name_lacks fresh isWritten))
  test := test

theorem self_filled (whole : Bool) :
    Filled written.phrase written.phrase whole written.blank written where
  phrase := by cases whole <;> rfl
  slot := rfl
  aggregates := rfl
  everywhere _ := rfl

/-- The expression between parentheses is what the places of a name are filled with. -/
theorem replacing_filled {expression : Expression} {lexicon : Lexicon}
    (writes : lexicon.write expression = some written) (whole : Bool) :
    Option.Rel (Filled written.phrase written.between whole) (some written.blank)
      ((lexicon.replacing name expression).name? whole name []) := by
  have isTerm : (lexicon.replacing name expression).name? whole name [] =
      some (if whole || written.slot.isSome then written else written.enclosed) := by
    simp [Lexicon.replacing, Lexicon.writeTerm, Lexicon.writeAtom, writes]
  rw [isTerm]
  -- A slot takes no parentheses, and anything else takes them unless it is the whole.
  cases isSlot : written.slot with
  | some slot =>
    have between : written.between = written.phrase := by simp [Written.between, isSlot]
    rw [between, Option.isSome_some, Bool.or_true, if_pos rfl]
    exact .some (self_filled whole)
  | none =>
    have between : written.between = .group written.phrase := by simp [Written.between, isSlot]
    rw [between, Option.isSome_none, Bool.or_false]
    cases whole with
    | true => exact .some ⟨rfl, rfl, rfl, by simp [Written.blank, isSlot]⟩
    | false =>
      refine .some ⟨rfl, ?_, ?_, by simp [Written.blank, isSlot]⟩
      · simp [Written.blank, Written.enclosed, Written.ofParts, isSlot]
      · simp [Written.blank, Written.enclosed, Written.ofParts]

theorem names_asItIs (settings : Settings) (written : Written)
    (fresh : ∀ other written, given other = some written →
      Lexeme.place ∉ written.phrase.fragment)
    (noSlot : graph.slot? name = none) :
    NamesRelated (fun whole _ => Filled written.phrase written.phrase whole) (bare name)
      (.meaning settings graph (withName name written.blank given))
      (.meaning settings graph (withName name written given)) := by
  refine names_filled fresh noSlot (fun whole => ?_) (fun whole other path different => ?_) rfl
  · rw [meaning_self noSlot]
    exact .some (self_filled whole)
  · exact meaning_other different whole path

theorem names_enclosed
    (fresh : ∀ other written, given other = some written →
      Lexeme.place ∉ written.phrase.fragment)
    (noSlot : graph.slot? name = none) {expression : Expression}
    (writes : (Lexicon.meaning settings graph given).write expression = some written) :
    NamesRelated (fun whole _ => Filled written.phrase written.between whole) (bare name)
      (.meaning settings graph (withName name written.blank given))
      ((Lexicon.meaning settings graph given).replacing name expression) :=
  names_filled fresh noSlot (replacing_filled writes)
    (fun _ _ _ different => if_neg (Ne.symm different)) rfl

end

end CypherSql.Compilation
