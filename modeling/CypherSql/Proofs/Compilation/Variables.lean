import CypherSql.Proofs.Compilation.Correlations

/-! # Expressions that are a slot

What an expression compiles to is a whole slot only where nothing is applied to anything: it is a
name, possibly in parentheses, and the name denotes the slot.

* `IsVariable` — an expression is a name, possibly in parentheses.
* `Lexicon.exists_isVariable` — only a variable is written as a slot.
* `Progress.compile_slot_iff` — what an expression compiles to is the slot that it denotes.
-/

namespace CypherSql.Compilation

open CypherSql.Cypher
open CypherSql.Graph (Slot)

/-! ## Expressions that are a variable -/

/-- An expression is a name and nothing else, but for parentheses around it. -/
inductive IsVariable (name : String) : Expression → Prop where
  | name {expression : Expression} (isTerm : expression.term? = some ⟨.name name, []⟩) :
      IsVariable name expression
  | parenthesized {expression inner : Expression}
      (isTerm : expression.term? = some ⟨.parenthesized inner, []⟩)
      (isVariable : IsVariable name inner) : IsVariable name expression

theorem term?_eq_some {expression : Expression} {term : Term}
    (isTerm : expression.term? = some term) :
    expression = ⟨[⟨[⟨[⟨false, ⟨⟨⟨[⟨false, term, []⟩]⟩, []⟩, []⟩, []⟩]⟩]⟩]⟩ := by
  unfold Expression.term? at isTerm
  split at isTerm
  · obtain rfl := Option.some.inj isTerm
    rfl
  · contradiction

namespace Lexicon

variable {lexicon : Lexicon} {written : Written}

/-- Where nothing is applied to a term, the expression is written as the term. -/
theorem write_of_term? {expression : Expression} {term : Term}
    (isTerm : expression.term? = some term) :
    lexicon.write expression = lexicon.writeTerm true term := by
  obtain rfl := term?_eq_some isTerm
  simp [write, writeExclusion, writeConjunction, writeComparison, writeAddition,
    writeMultiplication, writePower, writeSigned, writeCompared, writeAdded, writeMultiplied,
    writeTests]

theorem write_of_isVariable {name : String} {expression : Expression}
    (isVariable : IsVariable name expression) :
    lexicon.write expression = lexicon.name? true name [] := by
  induction isVariable with
  | name isTerm => rw [write_of_term? isTerm, writeTerm]
  | parenthesized isTerm _ ih =>
    rw [write_of_term? isTerm, ← ih]
    simp [writeTerm, writeAtom]

/-! A slot is not made by any operator, so nothing is applied to it. -/

section

variable {whole : Bool} (isSlot : written.slot.isSome = true)

include isSlot

theorem write_of_slot {expression : Expression} (isWritten : lexicon.write expression = some written) :
    ∃ only, expression = ⟨[only]⟩ ∧ lexicon.writeExclusion true only = some written := by
  match expression with
  | ⟨[]⟩ => contradiction
  | ⟨[only]⟩ => exact ⟨only, rfl, isWritten⟩
  | ⟨first :: second :: rest⟩ =>
    obtain ⟨_, _, isWritten⟩ := Option.bind_eq_some_iff.mp isWritten
    obtain ⟨_, _, isWritten⟩ := Option.bind_eq_some_iff.mp isWritten
    obtain rfl := Option.some.inj isWritten
    contradiction

omit isSlot in
theorem writeExclusion_of_slot {operand : Exclusion}
    (isWritten : lexicon.writeExclusion whole operand = some written) :
    ∃ only, operand = ⟨[only]⟩ ∧ lexicon.writeConjunction whole only = some written := by
  match operand with
  | ⟨[only]⟩ => exact ⟨only, rfl, isWritten⟩
  | ⟨[]⟩ | ⟨_ :: _ :: _⟩ => contradiction

theorem writeConjunction_of_slot {operand : Conjunction}
    (isWritten : lexicon.writeConjunction whole operand = some written) :
    ∃ only, operand = ⟨[only]⟩ ∧ lexicon.writeComparison whole only = some written := by
  match operand with
  | ⟨[]⟩ => contradiction
  | ⟨[only]⟩ => exact ⟨only, rfl, isWritten⟩
  | ⟨first :: second :: rest⟩ =>
    obtain ⟨_, _, isWritten⟩ := Option.bind_eq_some_iff.mp isWritten
    obtain ⟨_, _, isWritten⟩ := Option.bind_eq_some_iff.mp isWritten
    obtain rfl := Option.some.inj isWritten
    contradiction

theorem writeComparison_of_slot {operand : Comparison}
    (isWritten : lexicon.writeComparison whole operand = some written) :
    ∃ left, operand = ⟨false, left, []⟩ ∧ lexicon.writeAddition whole left = some written := by
  obtain ⟨negated, left, rest⟩ := operand
  obtain ⟨first, isFirst, isWritten⟩ := Option.bind_eq_some_iff.mp isWritten
  obtain ⟨compared, isCompared, isWritten⟩ := Option.bind_eq_some_iff.mp isWritten
  obtain rfl := Option.some.inj isWritten
  cases negated with
  | true => contradiction
  | false =>
    match rest with
    | [] =>
      obtain rfl := Option.some.inj isCompared
      exact ⟨left, rfl, by simpa using isFirst⟩
    | [_] =>
      obtain ⟨_, _, isCompared⟩ := Option.bind_eq_some_iff.mp isCompared
      obtain rfl := Option.some.inj isCompared
      contradiction
    | _ :: _ :: _ => contradiction

theorem writeAddition_of_slot {operand : Addition}
    (isWritten : lexicon.writeAddition whole operand = some written) :
    ∃ first, operand = ⟨first, []⟩ ∧ lexicon.writeMultiplication whole first = some written := by
  obtain ⟨first, rest⟩ := operand
  obtain ⟨left, isLeft, isWritten⟩ := Option.bind_eq_some_iff.mp isWritten
  obtain ⟨right, isRight, isWritten⟩ := Option.bind_eq_some_iff.mp isWritten
  obtain rfl := Option.some.inj isWritten
  cases rest with
  | nil =>
    obtain rfl := Option.some.inj isRight
    exact ⟨first, rfl, by simpa using isLeft⟩
  | cons step rest =>
    obtain ⟨_, _, isRight⟩ := Option.bind_eq_some_iff.mp isRight
    obtain ⟨_, _, isRight⟩ := Option.bind_eq_some_iff.mp isRight
    obtain rfl := Option.some.inj isRight
    contradiction

theorem writeMultiplication_of_slot {operand : Multiplication}
    (isWritten : lexicon.writeMultiplication whole operand = some written) :
    ∃ first, operand = ⟨first, []⟩ ∧ lexicon.writePower whole first = some written := by
  obtain ⟨first, rest⟩ := operand
  obtain ⟨left, isLeft, isWritten⟩ := Option.bind_eq_some_iff.mp isWritten
  obtain ⟨right, isRight, isWritten⟩ := Option.bind_eq_some_iff.mp isWritten
  obtain rfl := Option.some.inj isWritten
  cases rest with
  | nil =>
    obtain rfl := Option.some.inj isRight
    exact ⟨first, rfl, by simpa using isLeft⟩
  | cons step rest =>
    obtain ⟨_, _, isRight⟩ := Option.bind_eq_some_iff.mp isRight
    obtain ⟨_, _, isRight⟩ := Option.bind_eq_some_iff.mp isRight
    obtain rfl := Option.some.inj isRight
    contradiction

theorem writePower_of_slot {operand : Power}
    (isWritten : lexicon.writePower whole operand = some written) :
    ∃ only, operand = ⟨[only]⟩ ∧ lexicon.writeSigned whole only = some written := by
  match operand with
  | ⟨[]⟩ => contradiction
  | ⟨[only]⟩ => exact ⟨only, rfl, isWritten⟩
  | ⟨first :: second :: rest⟩ =>
    obtain ⟨_, _, isWritten⟩ := Option.bind_eq_some_iff.mp isWritten
    obtain ⟨_, _, isWritten⟩ := Option.bind_eq_some_iff.mp isWritten
    obtain rfl := Option.some.inj isWritten
    contradiction

theorem writeSigned_of_slot {operand : Signed}
    (isWritten : lexicon.writeSigned whole operand = some written) :
    ∃ term, operand = ⟨false, term, []⟩ ∧ lexicon.writeTerm whole term = some written := by
  obtain ⟨negative, term, tests⟩ := operand
  obtain ⟨subject, isSubject, isWritten⟩ := Option.bind_eq_some_iff.mp isWritten
  obtain ⟨tested, isTested, isWritten⟩ := Option.bind_eq_some_iff.mp isWritten
  obtain rfl := Option.some.inj isWritten
  cases negative with
  | true => contradiction
  | false =>
    match tests with
    | [] =>
      obtain rfl := Option.some.inj isTested
      exact ⟨term, rfl, by simpa using isSubject⟩
    | [_] =>
      obtain ⟨_, _, rfl⟩ := Option.map_eq_some_iff.mp isTested
      contradiction
    | _ :: _ :: _ => contradiction

theorem exists_term_of_slot {expression : Expression}
    (isWritten : lexicon.write expression = some written) :
    ∃ term, expression.term? = some term ∧ lexicon.writeTerm true term = some written := by
  obtain ⟨exclusion, rfl, asExclusion⟩ := write_of_slot isSlot isWritten
  obtain ⟨conjunction, rfl, asConjunction⟩ := writeExclusion_of_slot asExclusion
  obtain ⟨comparison, rfl, asComparison⟩ := writeConjunction_of_slot isSlot asConjunction
  obtain ⟨addition, rfl, asAddition⟩ := writeComparison_of_slot isSlot asComparison
  obtain ⟨multiplication, rfl, asMultiplication⟩ := writeAddition_of_slot isSlot asAddition
  obtain ⟨power, rfl, asPower⟩ := writeMultiplication_of_slot isSlot asMultiplication
  obtain ⟨signed, rfl, asSigned⟩ := writePower_of_slot isSlot asPower
  obtain ⟨term, rfl, asTerm⟩ := writeSigned_of_slot isSlot asSigned
  exact ⟨term, rfl, asTerm⟩

end

/-- Only a variable is written as a slot. -/
theorem exists_isVariable {lexicon : Lexicon} {written : Written} (pathless : ∀ whole name path
      written, lexicon.name? whole name path = some written → written.slot.isSome = true → path = [])
    (expression : Expression) (isWritten : lexicon.write expression = some written)
    (isSlot : written.slot.isSome = true) : ∃ name, IsVariable name expression := by
  obtain ⟨⟨atom, path⟩, isTerm, asTerm⟩ := exists_term_of_slot isSlot isWritten
  obtain ⟨_, _, isName⟩ := (writeTerm_builds true _ _ asTerm).eq_name_of_slot isSlot
  cases atom with
  | name name =>
    obtain rfl := pathless _ _ _ _ asTerm isSlot
    exact ⟨name, .name isTerm⟩
  | parenthesized inner =>
    rw [writeTerm] at asTerm
    split at asTerm
    · next bare =>
      obtain rfl : path = [] := by simpa using bare
      obtain ⟨value, isValue, isWhole⟩ := Option.bind_eq_some_iff.mp asTerm
      obtain rfl := Option.some.inj isWhole
      have smaller : sizeOf inner < sizeOf expression := by
        rw [term?_eq_some isTerm]
        simp
        omega
      obtain ⟨name, isVariable⟩ := exists_isVariable pathless inner isValue isSlot
      exact ⟨name, .parenthesized isTerm isVariable⟩
    · contradiction
  | literal | call | countAll | pattern => simp [Term.ingredients, Atom.ingredients] at isName
termination_by sizeOf expression

end Lexicon

/-! ## Variables that denote slots -/

section

variable {progress : Progress} {meaning : String → Option Written}

/-- The phrase that a name is written as is a slot where the name denotes one. -/
theorem Progress.slot_of_nameMeans (given : progress.bindings.Given) {name : String}
    {path : List String} {written : Written}
    (means : NameMeans progress.bindings progress.graph name path written) {slot : Slot}
    (isSlot : written.slot = some slot) : path = [] ∧ progress.Denotes name slot := by
  have bare : ∀ {found : Slot} {path : List String}, (Written.ofSlot found path).slot = some slot →
      path = [] ∧ found = slot := by
    intro found path same
    unfold Written.ofSlot at same
    split at same
    · next empty => exact ⟨by simpa using empty, Option.some.inj same⟩
    · contradiction
  cases means with
  | slot _ bound =>
    obtain ⟨rfl, rfl⟩ := bare isSlot
    exact ⟨rfl, Progress.denotes_iff.mpr (.inl bound)⟩
  | given unbound found stands =>
    have whole := (given.made (made_whole progress.bindings.settings)).find? found
    rw [whole slot (stands.slot.trans isSlot)] at found
    exact ⟨rfl, Progress.denotes_iff.mpr (.inr ⟨unbound, found⟩)⟩
  | property _ _ _ present => exact absurd (bare isSlot).1 present
  | word => contradiction

/-- A name that denotes a slot is written as the slot. -/
theorem Progress.name?_of_denotes (meanings : Meanings progress.bindings meaning) {name : String}
    {slot : Slot} (denotes : progress.Denotes name slot) {written : Written} {whole : Bool}
    (isWritten : (Lexicon.meaning progress.bindings.settings progress.graph meaning).name? whole
      name [] = some written) : written.slot = some slot := by
  have stands := meanings.represents name
  dsimp only [Lexicon.meaning] at isWritten
  rcases Progress.denotes_iff.mp denotes with bound | ⟨unbound, found⟩
  · rw [bound] at isWritten
    obtain rfl := Option.some.inj isWritten
    rfl
  · rw [found] at stands
    cases isMeant : meaning name with
    | none => simp [isMeant] at stands
    | some value =>
      rw [isMeant] at stands
      simp only [unbound, isMeant, List.isEmpty_nil, if_true] at isWritten
      obtain rfl := Option.some.inj isWritten
      cases stands with
      | some stands => exact stands.slot.symm

theorem Progress.compile_written (meanings : Meanings progress.bindings meaning) {next : Progress}
    {expression : Expression} {compiled : Compiled}
    (compiles : progress.compile expression = .ok (compiled, next)) :
    ∃ written, (Lexicon.meaning progress.bindings.settings progress.graph meaning).write
        expression = some written ∧ Represents compiled written := by
  obtain ⟨state, ran, -⟩ := Progress.compile_run compiles
  have outcome := (compile_writes (spells_meaning rfl meanings.represents) expression
    ⟨progress.graph, progress.nextPattern⟩ rfl).1
  rw [ran] at outcome
  generalize Lexicon.write _ expression = result at outcome ⊢
  cases outcome with
  | value stands => exact ⟨_, rfl, stands⟩

omit meaning in
/-- What an expression compiles to is a slot exactly where it is a variable that denotes it. -/
theorem Progress.compile_slot_iff (given : progress.bindings.Given) {next : Progress}
    {expression : Expression} {compiled : Compiled}
    (compiles : progress.compile expression = .ok (compiled, next)) {slot : Slot} :
    compiled.slot = some slot ↔
      ∃ name, IsVariable name expression ∧ progress.Denotes name slot := by
  obtain ⟨meaning, meanings⟩ := given.meanings
  obtain ⟨written, isWritten, stands⟩ := Progress.compile_written meanings compiles
  rw [stands.slot]
  constructor
  · intro isSlot
    have pathless : ∀ whole name path written,
        (Lexicon.meaning progress.bindings.settings progress.graph meaning).name? whole name path =
          some written → written.slot.isSome = true → path = [] := by
      intro whole name path written means isSome
      obtain ⟨found, isFound⟩ := Option.isSome_iff_exists.mp isSome
      exact (Progress.slot_of_nameMeans given (meanings.nameMeans means) isFound).1
    obtain ⟨name, isVariable⟩ := Lexicon.exists_isVariable pathless expression isWritten
      (Option.isSome_iff_exists.mpr ⟨slot, isSlot⟩)
    rw [Lexicon.write_of_isVariable isVariable] at isWritten
    exact ⟨name, isVariable,
      (Progress.slot_of_nameMeans given (meanings.nameMeans isWritten) isSlot).2⟩
  · rintro ⟨name, isVariable, denotes⟩
    rw [Lexicon.write_of_isVariable isVariable] at isWritten
    exact Progress.name?_of_denotes meanings denotes isWritten

end

end CypherSql.Compilation
