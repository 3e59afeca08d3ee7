import CypherSql.Proofs.Compilation.Congruence
import CypherSql.Proofs.Compilation.Results
import CypherSql.Proofs.Compilation.Written

/-! # Levels of what is compiled

What an expression is written as fits in Cypher, as far as the names in it do.

* `Grammatical` — a property of phrases that each way of building a phrase keeps.
* `Grammatical.congruent` — such a property is one of everything that is written.
* `Meanings` — what names that are given are written as.
* `Bindings.Given.meanings` — everything that names stand for is written as some phrase.
-/

namespace CypherSql.Compilation

open CypherSql.Cypher
open CypherSql.Graph (Slot)
open CypherSql.Sql (Binary Fragment Lexeme Phrase Precedence Subselect Unary)

/-! ## Properties of phrases -/

/-- A property of phrases, by how tightly they have to bind, that a phrase has if its operands bind
as tightly as Cypher asks and have the property. -/
structure Grammatical (P : Nat → Phrase → Prop) : Prop where
  looser : ∀ {level level' phrase}, level' ≤ level → P level phrase → P level' phrase
  literal : ∀ value, P 9 (.operand (.literal value) rfl)
  test : ∀ sub, P 9 (.operand (.existing sub) rfl)
  star : P 9 Written.star
  group : ∀ {inner}, P 1 inner → P 9 (.group inner)
  count : ∀ {distinct argument}, P 1 argument → P 9 (.count distinct argument)
  power : ∀ {base exponent}, P 1 base → P 1 exponent → P 9 (.power base exponent)
  unary : ∀ {operator : Unary} {inner}, P operator.operandLevel inner →
    P operator.level (.unary operator inner)
  binary : ∀ {operator left right}, P (Precedence.cypher operator) left →
    P (Precedence.cypher operator + 1) right →
      P (Precedence.cypher operator) (.binary operator left right)

/-- The same is written twice, and it has the property.  A slot can stand everywhere. -/
structure Bears (P : Nat → Phrase → Prop) (level : Nat) (first second : Written) : Prop where
  same : second = first
  holds : P level first.phrase
  slot : first.slot.isSome = true → P 9 first.phrase

namespace Grammatical

variable {P : Nat → Phrase → Prop} (grammatical : Grammatical P)

theorem bears_ofParts {level : Nat} {phrase : Phrase} {parts : List Written}
    (holds : P level phrase) : Bears P level (.ofParts phrase parts) (.ofParts phrase parts) :=
  ⟨rfl, holds, fun isSlot => nomatch isSlot⟩

theorem forall_of_bears {level : Nat} {parts parts' : List Written}
    (each : List.Forall₂ (Bears P level) parts parts') :
    parts' = parts ∧ ∀ part ∈ parts, P level part.phrase := by
  induction each with
  | nil => exact ⟨rfl, List.forall_mem_nil _⟩
  | cons part _ ih =>
    obtain ⟨same, holds⟩ := ih
    exact ⟨by rw [part.same, same], List.forall_mem_cons.mpr ⟨part.holds, holds⟩⟩

include grammatical

theorem stepsFrom {level : Nat} {rest rest' : List (Binary × Written)}
    (each : List.Forall₂ (StepRelated (fun _ => Bears P) level) rest rest') {first : Phrase}
    (holds : P level first) :
    P level (Written.stepsFrom first rest) ∧
      rest' = rest := by
  induction each generalizing first with
  | nil => exact ⟨holds, rfl⟩
  | @cons entry entry' _ _ step _ ih =>
    obtain ⟨sameOperator, rfl, part⟩ := step
    obtain ⟨whole, rfl⟩ := ih (grammatical.binary holds part.holds)
    exact ⟨whole, congrArg (· :: _) (Prod.ext sameOperator part.same)⟩

theorem powersFrom {rest : List Written} (each : ∀ part ∈ rest, P 1 part.phrase) {first : Phrase}
    (holds : P 9 first) :
    P 9 (Written.powersFrom first rest) := by
  induction rest generalizing first with
  | nil => exact holds
  | cons part rest ih =>
    obtain ⟨ofPart, ofRest⟩ := List.forall_mem_cons.mp each
    exact ih ofRest (grammatical.power (grammatical.looser (by decide) holds) ofPart)

theorem congruent : Congruent fun _ => Bears P where
  slot bears := by rw [bears.same]
  aggregates bears := by rw [bears.same]
  looser below bears := { bears with holds := grammatical.looser below bears.holds }
  literal value := bears_ofParts (grammatical.literal value)
  test sub := bears_ofParts (grammatical.test sub)
  countAll := ⟨rfl, grammatical.count (grammatical.looser (by decide) grammatical.star),
    fun isSlot => nomatch isSlot⟩
  steps bears _ each := by
    obtain ⟨holds, rfl⟩ := grammatical.stepsFrom each bears.holds
    rw [bears.same]
    exact bears_ofParts holds
  behind operator bears := by
    rw [bears.same]
    exact bears_ofParts (grammatical.unary bears.holds)
  raised := by
    intro _ first first' rest rest' bears nonempty each
    obtain ⟨same, holds⟩ := forall_of_bears each
    rw [bears.same, same]
    cases rest with
    | nil => exact absurd rfl nonempty
    | cons part rest =>
      obtain ⟨ofPart, ofRest⟩ := List.forall_mem_cons.mp holds
      exact bears_ofParts (grammatical.powersFrom ofRest (grammatical.power bears.holds ofPart))
  tested operator text bears := by
    rw [bears.same]
    have left : P (Precedence.cypher .like) _ := grammatical.looser (by decide) bears.holds
    exact bears_ofParts (grammatical.binary left (grammatical.literal _))
  counted := by
    intro _ argument argument' distinct bears
    rw [bears.same]
    have counts : P 1 (if argument.slot.isSome && !distinct then Written.star
        else argument.phrase) := by
      split
      · exact grammatical.looser (by decide) grammatical.star
      · exact bears.holds
    exact ⟨rfl, grammatical.count counts, fun isSlot => nomatch isSlot⟩
  enclosed bears _ := by
    rw [bears.same]
    exact bears_ofParts (grammatical.group bears.holds)
  slotted bears isSlot := { bears with holds := bears.slot isSlot }

end Grammatical

/-! ## Levels of Cypher -/

/-- What an expression is written as fits in Cypher. -/
theorem grammatical_fits : Grammatical fun level phrase => phrase.fits .cypher level = true where
  looser := Phrase.fits_mono
  literal _ := rfl
  test _ := rfl
  star := rfl
  group inner := inner
  count argument := argument
  power base exponent := Phrase.fits_power.mpr ⟨base, exponent⟩
  unary inner := Phrase.fits_unary.mpr ⟨Nat.le_refl _, inner⟩
  binary left right := Phrase.fits_binary.mpr ⟨Nat.le_refl _, left, right⟩

/-- A text that is given as it stands does not occur. -/
def Lacks (text : String) (_level : Nat) (phrase : Phrase) : Prop :=
  Lexeme.given text ∉ phrase.fragment

/-- Text that is given as it stands has a lexeme of its own, which no expression is written with. -/
theorem grammatical_lacks (text : String) : Grammatical (Lacks text) where
  looser _ absent := absent
  literal _ := by simp [Lacks, Phrase.fragment]
  test _ := by simp [Lacks, Phrase.fragment]
  star := by simp [Lacks, Phrase.fragment, Written.star]
  group absent := by simpa [Lacks, Phrase.fragment, Fragment.parenthesized] using absent
  count := by
    intro distinct argument absent
    cases distinct <;> simpa [Lacks, Phrase.fragment] using absent
  power base exponent := by simpa [Lacks, Phrase.fragment] using And.intro base exponent
  unary := by
    intro operator inner absent
    cases operator <;> simpa [Lacks, Phrase.fragment, Unary.lexeme] using absent
  binary := by
    intro operator left right absent absent'
    cases operator <;>
      simpa [Lacks, Phrase.fragment, Binary.lexeme] using And.intro absent absent'

/-! ## Names that are given -/

theorem Bindings.find?_bind (bindings : Bindings) (name other : String) (compiled : Compiled) :
    (bindings.bind name compiled).find? other =
      if name = other then some compiled else bindings.find? other := by
  by_cases same : name = other
  · simp [find?, bind, same]
  · simp [find?, bind, same]

/-- What the names of a query are written as. -/
structure Meanings (bindings : Bindings) (given : String → Option Written) : Prop where
  represents : ∀ name, Option.Rel Represents (bindings.find? name) (given name)
  fresh : ∀ text name written, given name = some written →
    Lexeme.given text ∉ written.phrase.fragment

section

variable {P : Nat → Phrase → Prop} {settings : Settings} {graph : Graph}
  {given : String → Option Written}

theorem bears_ofSlot (field : ∀ slot path, P 9 (.operand (.field (.outer slot) path) rfl))
    {level : Nat} (looser : ∀ {phrase}, P 9 phrase → P level phrase) (slot : Slot)
    (path : List String) : Bears P level (.ofSlot slot path) (.ofSlot slot path) := by
  unfold Written.ofSlot
  split
  · exact ⟨rfl, looser (field _ _), fun _ => field _ _⟩
  · exact Grammatical.bears_ofParts (looser (field _ _))

/-- Two lexicons of one graph that give the same for the names that are allowed. -/
theorem names_bear (grammatical : Grammatical P)
    (field : ∀ slot path, P 9 (.operand (.field (.outer slot) path) rfl))
    (word : ∀ name, P 9 (.operand (.word name) rfl)) {allowed : String → List String → Bool}
    {given' : String → Option Written}
    (bears : ∀ whole name path, allowed name path = true → graph.slot? name = none →
      Option.Rel (Bears P (asked whole 9)) (given name) (given' name)) :
    NamesRelated (fun _ => Bears P) allowed (.meaning settings graph given)
      (.meaning settings graph given') where
  name whole name path isAllowed := by
    have looser : ∀ {phrase}, P 9 phrase → P (asked whole 9) phrase :=
      grammatical.looser (asked_le (by decide) (Nat.le_refl 9))
    have related := bears whole name path isAllowed
    dsimp only [Lexicon.meaning]
    cases isSlot : graph.slot? name with
    | some slot => exact .some (bears_ofSlot field looser slot path)
    | none =>
      generalize given name = first, given' name = second at related
      cases related isSlot with
      | none =>
        dsimp only
        split
        · exact .some (Grammatical.bears_ofParts (looser (word name)))
        · exact .none
      | @some written _ bears =>
        dsimp only
        rw [bears.same]
        split
        · exact .some ⟨rfl, bears.holds, bears.slot⟩
        · cases written.slot with
          | none => exact .none
          | some slot => exact .some (bears_ofSlot field looser slot path)
  test := rfl

end

section

variable {given : String → Option Written} {text : String}
  (fresh : ∀ name written, given name = some written → Lexeme.given text ∉ written.phrase.fragment)

include fresh

theorem names_lack (settings : Settings) (graph : Graph) :
    NamesRelated (fun _ => Bears (Lacks text)) (fun _ _ => true)
      (.meaning settings graph given) (.meaning settings graph given) := by
  refine names_bear (grammatical_lacks text) ?_ ?_ ?_
  · simp [Lacks, Phrase.fragment]
  · simp [Lacks, Phrase.fragment]
  · intro _ name _ _ _
    cases isGiven : given name with
    | none => exact .none
    | some written =>
      exact .some ⟨rfl, fresh name written isGiven, fun _ => fresh name written isGiven⟩

variable {settings : Settings} {graph : Graph}

theorem name_lacks {whole : Bool} {name : String} {path : List String} {written : Written}
    (means : (Lexicon.meaning settings graph given).name? whole name path = some written) :
    Lexeme.given text ∉ written.phrase.fragment := by
  have related := (names_lack fresh settings graph).name whole name path rfl
  rw [means] at related
  cases related with
  | some bears => exact bears.holds

/-- No expression is written with text that is given as it stands. -/
theorem write_lacks {expression : Expression} {written : Written}
    (writes : (Lexicon.meaning settings graph given).write expression = some written) :
    Lexeme.given text ∉ written.phrase.fragment := by
  have related := Lexicon.write_related (grammatical_lacks text).congruent
    (names_lack fresh settings graph) expression (expression.everyMention_of_all fun _ _ => rfl)
  rw [writes] at related
  cases related with
  | some bears => exact bears.holds

end

theorem meanings_none (settings : Settings) : Meanings ⟨settings, []⟩ fun _ => none where
  represents _ := .none
  fresh _ _ _ isGiven := nomatch isGiven

/-- Everything that a given name stands for is written as some phrase. -/
theorem Bindings.Given.meanings {bindings : Bindings} (given : bindings.Given) :
    ∃ meaning, Meanings bindings meaning := by
  induction given with
  | none settings => exact ⟨fun _ => .none, meanings_none settings⟩
  | @bind bindings _ expression state compiled compiles name ih =>
    obtain ⟨meaning, meanings⟩ := ih
    have spells : Spells (.meaning bindings.settings state.graph meaning) state.graph bindings :=
      spells_meaning rfl meanings.represents
    have outcome := (compile_writes spells expression state rfl).1
    rw [compiles] at outcome
    generalize isWritten :
      (Lexicon.meaning bindings.settings state.graph meaning).write expression = result at outcome
    cases outcome with
    | @value _ written stands =>
      refine ⟨fun other => if name = other then some written else meaning other, ?_, ?_⟩
      · intro other
        rw [Bindings.find?_bind]
        split
        · exact .some stands
        · exact meanings.represents other
      · intro text other found isFound
        split at isFound
        · obtain rfl := Option.some.inj isFound
          exact write_lacks (meanings.fresh text) isWritten
        · exact meanings.fresh text other found isFound

end CypherSql.Compilation
