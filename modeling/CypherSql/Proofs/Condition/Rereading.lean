import CypherSql.Proofs.Condition.Leaves
import CypherSql.Proofs.Condition.Traces
import CypherSql.Proofs.Sql.Texts
import CypherSql.Proofs.Sql.Truth

/-! # The text of a condition is read as the condition

Parentheses are left out around a condition that stands alone, and around a node with one child.
All that has to be shown for them is that the nested form of a condition is one operand or stands in
parentheses, so that it can be an operand of everything.

* `Phrase.chain` — operands with an operator between them.
* `Spells` — a phrase that is written with these words and says what a condition says.
* `Spelling` — the two phrases that a condition is written as.
* `text_reads` — what SQL reads in the texts of a condition, and around the nested one.
-/

namespace CypherSql

open CypherSql.Condition (Token Written)

/-! ## Chains -/

namespace Sql

namespace Phrase

/-- The texts that are operands, from left to right. -/
def operands : Phrase → List String
  | operand (.given text) _ => [text]
  | operand _ _ => []
  | group inner | count _ inner | unary _ inner => inner.operands
  | power left right | binary _ left right => left.operands ++ right.operands

/-- Whether a phrase is an operand by itself or stands in parentheses. -/
def isUnit : Phrase → Bool
  | operand _ _ | group _ => true
  | _ => false

/-- Operands with an operator between them, applied from left to right. -/
def chain (operator : Binary) (first : Phrase) (rest : List Phrase) : Phrase :=
  rest.foldl (binary operator) first

section

variable (operator : Binary) (first : Phrase) (rest : List Phrase)

theorem fragment_chain : (chain operator first rest).fragment =
    Fragment.joined operator.lexeme ((first :: rest).map fragment) := by
  rw [List.map_cons, Fragment.joined_cons]
  induction rest generalizing first with
  | nil => simp [chain]
  | cons second rest ih =>
    have later : chain operator first (second :: rest) =
      chain operator (binary operator first second) rest := rfl
    rw [later, ih, fragment, List.map_cons, List.flatMap_cons, List.append_assoc]

theorem operands_chain :
    (chain operator first rest).operands = (first :: rest).flatMap operands := by
  induction rest generalizing first with
  | nil => simp [chain]
  | cons second rest ih =>
    have later : chain operator first (second :: rest) =
      chain operator (binary operator first second) rest := rfl
    rw [later, ih]
    simp [operands]

variable {operator first rest}

theorem chain_fits {level : Nat} (loose : level ≤ Precedence.sql operator)
    (fit : ∀ phrase ∈ first :: rest, ∀ level, phrase.fits .sql level = true) :
    (chain operator first rest).fits .sql level = true := by
  obtain ⟨firstFits, restFit⟩ := List.forall_mem_cons.mp fit
  replace firstFits := firstFits (Precedence.sql operator)
  clear fit
  -- What stands on the left needs to bind only as tightly as the operator itself.
  induction rest generalizing first with
  | nil => exact fits_mono loose firstFits
  | cons second rest ih =>
    obtain ⟨secondFits, restFit⟩ := List.forall_mem_cons.mp restFit
    exact ih restFit (fits_binary.mpr ⟨Nat.le_refl _, firstFits, secondFits _⟩)

theorem chain_formula (logical : operator = .or ∨ operator = .and)
    (formulas : ∀ phrase ∈ first :: rest, IsWritten phrase) :
    IsWritten (chain operator first rest) := by
  obtain ⟨ofFirst, ofRest⟩ := List.forall_mem_cons.mp formulas
  clear formulas
  induction rest generalizing first with
  | nil => exact ofFirst
  | cons second rest ih =>
    obtain ⟨ofSecond, ofRest⟩ := List.forall_mem_cons.mp ofRest
    exact ih (.binary logical ofFirst ofSecond) ofRest

theorem truth_chain_and {holds : Fragment → Bool} : (chain .and first rest).truth holds =
    (first :: rest).all fun phrase => phrase.truth holds := by
  induction rest generalizing first with
  | nil => simp [chain]
  | cons second rest ih =>
    have later : chain .and first (second :: rest) = chain .and (binary .and first second) rest :=
      rfl
    rw [later, ih]
    simp [truth, Bool.and_assoc]

theorem truth_chain_or {holds : Fragment → Bool} : (chain .or first rest).truth holds =
    (first :: rest).any fun phrase => phrase.truth holds := by
  induction rest generalizing first with
  | nil => simp [chain]
  | cons second rest ih =>
    have later : chain .or first (second :: rest) = chain .or (binary .or first second) rest := rfl
    rw [later, ih]
    simp [truth, Bool.or_assoc]

end

end Phrase

end Sql

namespace Condition

open CypherSql.Sql (Binary Fragment IsFrame IsWritten Lexeme Phrase Precedence ReadsText isAtomic)

/-! ## Words of a condition -/

def Token.lexeme : Token String → Lexeme
  | leaf text => .given text
  | and => .and
  | or => .or
  | opening => .opening
  | closing => .closing

theorem text_map_lexeme (words : List (Token String)) :
    Fragment.text (words.map Token.lexeme) = String.join (words.map (Token.text id)) := by
  have same : Lexeme.text ∘ Token.lexeme = Token.text id := by
    funext word
    cases word <;> rfl
  rw [Fragment.text, List.map_map, same]

theorem map_joined (operator : Token String) (parts : List (List (Token String))) :
    ([operator].intercalate parts).map Token.lexeme =
      Fragment.joined operator.lexeme (parts.map (List.map Token.lexeme)) := by
  rw [Fragment.joined]
  induction parts with
  | nil => rfl
  | cons first rest ih =>
    cases rest with
    | nil => simp
    | cons second rest =>
      rw [List.intercalate_cons_cons, List.map_append, List.map_append, List.map_singleton, ih]
      simp only [List.map_cons, List.intercalate_cons_cons]

/-- Whether a phrase holds, where it is known which texts do. -/
abbrev truthOf (truth : String → Bool) (phrase : Phrase) : Bool :=
  phrase.truth fun fragment => truth fragment.text

/-- The phrase is written with these words, and says what the condition says of the same texts in
the same order. -/
structure Spells (words : List (Token String)) (condition : Condition String) (phrase : Phrase) :
    Prop where
  written : phrase.fragment = words.map Token.lexeme
  formula : IsWritten phrase
  operands : phrase.operands = condition.leaves
  truth : ∀ truth, truthOf truth phrase = condition.holds truth

/-- The phrase can be an operand of everything. -/
structure SpellsNested (written : Written String) (condition : Condition String) (phrase : Phrase) :
    Prop extends Spells written.nested condition phrase where
  unit : phrase.isUnit = true
  fits : ∀ level, phrase.fits .sql level = true

/-- What a condition is written as, alone and under an operator. -/
structure Spelling (written : Written String) (condition : Condition String) : Prop where
  bare : ∃ phrase, Spells written.bare condition phrase ∧ phrase.fits .sql 1 = true
  nested : ∃ phrase, SpellsNested written condition phrase

theorem Spells.of_agree {words : List (Token String)} {condition other : Condition String}
    {phrase : Phrase} (spells : Spells words condition phrase)
    (sameLeaves : condition.leaves = other.leaves) (agree : Agree condition other) :
    Spells words other phrase where
  written := spells.written
  formula := spells.formula
  operands := spells.operands.trans sameLeaves
  truth truth := (spells.truth truth).trans (agree truth)

/-- A node with one child is written as the child. -/
theorem Spelling.of_agree {written : Written String} {condition other : Condition String}
    (spelling : Spelling written condition) (sameLeaves : condition.leaves = other.leaves)
    (agree : Agree condition other) : Spelling written other where
  bare :=
    have ⟨phrase, spells, fits⟩ := spelling.bare
    ⟨phrase, spells.of_agree sameLeaves agree, fits⟩
  nested :=
    have ⟨phrase, spells⟩ := spelling.nested
    ⟨phrase, { spells.toSpells.of_agree sameLeaves agree with
      unit := spells.unit, fits := spells.fits }⟩

/-- What is written for several children can stand alone as it is, and under an operator between
parentheses. -/
theorem spelling_of_bare {words : List (Token String)} {condition : Condition String}
    {phrase : Phrase} (spells : Spells words condition phrase)
    (fits : phrase.fits .sql 1 = true) :
    Spelling ⟨words, .opening :: words ++ [.closing]⟩ condition where
  bare := ⟨phrase, spells, fits⟩
  nested := ⟨.group phrase,
    { written := by
        simp [Phrase.fragment, Fragment.parenthesized, spells.written, Token.lexeme]
      formula := .group spells.formula
      operands := spells.operands
      truth := spells.truth
      unit := rfl
      fits := fun _ => fits }⟩

theorem spelling_leaf {text : String} (atomic : isAtomic text = true) :
    Spelling ⟨[.leaf text], [.leaf text]⟩ (leaf text) := by
  have spells : Spells [.leaf text] (leaf text) (.operand (.given text) rfl) :=
    { written := rfl
      formula := Sql.IsFormula.operand atomic
      operands := rfl
      truth := fun truth => congrArg truth (Fragment.text_singleton _) }
  exact ⟨⟨_, spells, rfl⟩, ⟨_, { spells with unit := rfl, fits := fun _ => rfl }⟩⟩

/-! ## Nodes -/

/-- What the children of a node are written as. -/
structure SpellsAll (parts : List (Written String)) (children : List (Condition String))
    (phrases : List Phrase) : Prop where
  written : phrases.map Phrase.fragment = parts.map fun part => part.nested.map Token.lexeme
  formulas : ∀ phrase ∈ phrases, IsWritten phrase
  fits : ∀ phrase ∈ phrases, ∀ level, phrase.fits .sql level = true
  operands : phrases.flatMap Phrase.operands = children.flatMap leaves
  truth : ∀ truth, phrases.map (truthOf truth) = children.map (holds truth)

theorem exists_spellsAll {parts : List (Written String)} {children : List (Condition String)}
    (each : List.Forall₂ Spelling parts children) :
    ∃ phrases, SpellsAll parts children phrases := by
  induction each with
  | nil =>
    exact ⟨[], rfl, List.forall_mem_nil _, List.forall_mem_nil _, rfl, fun _ => rfl⟩
  | cons first _ ih =>
    obtain ⟨phrase, spells⟩ := first.nested
    obtain ⟨phrases, others⟩ := ih
    refine ⟨phrase :: phrases, ?_, ?_, ?_, ?_, fun truth => ?_⟩
    · rw [List.map_cons, List.map_cons, spells.written, others.written]
    · exact List.forall_mem_cons.mpr ⟨spells.formula, others.formulas⟩
    · exact List.forall_mem_cons.mpr ⟨spells.fits, others.fits⟩
    · rw [List.flatMap_cons, List.flatMap_cons, spells.operands, others.operands]
    · rw [List.map_cons, List.map_cons, spells.truth, others.truth]

/-- Several children with an operator between them. -/
theorem spelling_node (operator : Binary) {word : Token String}
    (isWord : word.lexeme = operator.lexeme) (logical : operator = .or ∨ operator = .and)
    {node : List (Condition String) → Condition String}
    (leavesNode : ∀ children, (node children).leaves = children.flatMap leaves)
    (holdsNode : ∀ truth first rest (children : List (Condition String)),
      (first :: rest).map (truthOf truth) = children.map (holds truth) →
        truthOf truth (Phrase.chain operator first rest) = (node children).holds truth)
    {parts : List (Written String)} {children : List (Condition String)}
    (each : List.Forall₂ Spelling parts children) (present : parts ≠ []) :
    Spelling (.joined word parts) (node children) := by
  obtain ⟨phrases, spells⟩ := exists_spellsAll each
  match parts, children, each with
  | [], [], .nil => contradiction
  | [part], [child], .cons only .nil =>
    refine only.of_agree ?_ fun truth => ?_
    · rw [leavesNode, List.flatMap_singleton]
    · obtain ⟨phrase, nested⟩ := only.nested
      rw [← nested.truth, ← holdsNode truth phrase [] [child] (by simp [nested.truth])]
      rfl
  | part :: second :: rest, children, _ =>
    rw [joined_cons_cons]
    obtain ⟨first, others, rfl⟩ := List.exists_cons_of_ne_nil (l := phrases) (by
      rintro rfl
      exact nomatch spells.written)
    have loose : 1 ≤ Precedence.sql operator := by rcases logical with rfl | rfl <;> decide
    have spellsNode : Spells _ (node children) (Phrase.chain operator first others) :=
      { written := by
          rw [Phrase.fragment_chain, spells.written, map_joined, isWord, List.map_map]
          rfl
        formula := Phrase.chain_formula logical spells.formulas
        operands := by rw [Phrase.operands_chain, spells.operands, leavesNode]
        truth := fun truth => holdsNode truth first others children (spells.truth truth) }
    exact spelling_of_bare spellsNode (Phrase.chain_fits loose spells.fits)

theorem spelling_all {parts : List (Written String)} {children : List (Condition String)}
    (each : List.Forall₂ Spelling parts children) (present : parts ≠ []) :
    Spelling (.joined .and parts) (all children) := by
  refine spelling_node .and rfl (.inr rfl) leaves_all ?_ each present
  intro truth first rest children same
  have both := congrArg (List.all · id) same
  rw [List.all_map, List.all_map] at both
  rw [truthOf, Phrase.truth_chain_and, holds_all]
  exact both

theorem spelling_any {parts : List (Written String)} {children : List (Condition String)}
    (each : List.Forall₂ Spelling parts children) (present : parts ≠ []) :
    Spelling (.joined .or parts) (any children) := by
  refine spelling_node .or rfl (.inl rfl) leaves_any ?_ each present
  intro truth first rest children same
  have either := congrArg (List.any · id) same
  rw [List.any_map, List.any_map] at either
  rw [truthOf, Phrase.truth_chain_or, holds_any]
  exact either

/-! ## Conditions -/

variable {blank : String → Bool}

mutual

theorem spelling_written : ∀ condition : Condition String, condition.isSolid blank = true →
    (∀ text ∈ condition.leaves, isAtomic text = true) →
      Spelling (condition.written blank) condition
  | leaf text, _, atomic => spelling_leaf (atomic text List.mem_cons_self)
  | all children, solid, atomic => by
    obtain ⟨present, each⟩ := isSolid_all.mp solid
    rw [leaves_all] at atomic
    rw [written, (writtenChildren_eq children each).1]
    exact spelling_all (forall₂_spelling children each atomic) (by simpa using present)
  | any children, solid, atomic => by
    obtain ⟨present, each⟩ := isSolid_any.mp solid
    rw [leaves_any] at atomic
    rw [written, (writtenChildren_eq children each).1]
    exact spelling_any (forall₂_spelling children each atomic) (by simpa using present)

theorem forall₂_spelling : ∀ children : List (Condition String),
    (∀ child ∈ children, child.isSolid blank = true) →
    (∀ text ∈ children.flatMap leaves, isAtomic text = true) →
      List.Forall₂ Spelling (children.map (written blank)) children
  | [], _, _ => .nil
  | child :: rest, solid, atomic => by
    obtain ⟨first, others⟩ := List.forall_mem_cons.mp solid
    rw [List.flatMap_cons, List.forall_mem_append] at atomic
    exact .cons (spelling_written child first atomic.1) (forall₂_spelling rest others atomic.2)

end

/-- SQL reads one formula in the text of a condition whose leaves are written as atomic texts. -/
theorem exists_readsText {α : Type} {leafText : α → String} {condition : Condition α}
    (solid : condition.isSolid (fun value => (leafText value).isEmpty) = true)
    (atomic : ∀ value ∈ condition.leaves, isAtomic (leafText value) = true) :
    ∃ phrase, (∀ other, ReadsText (condition.text leafText) other ↔ other = phrase) ∧
      phrase.operands = condition.leaves.map leafText ∧
      ∀ truth, truthOf truth phrase = condition.holds (truth ∘ leafText) := by
  have solidTexts : (condition.map leafText).isSolid String.isEmpty = true :=
    (isSolid_map leafText String.isEmpty condition).trans solid
  obtain ⟨phrase, spells, fits⟩ := (spelling_written (condition.map leafText) solidTexts (by
    simpa only [leaves_map, List.forall_mem_map] using atomic)).bare
  have isText : phrase.fragment.text = condition.text leafText := by
    rw [← text_map, spells.written, text_map_lexeme]
    rfl
  refine ⟨phrase, ?_, spells.operands.trans (leaves_map leafText condition), fun truth => ?_⟩
  · rw [← isText]
    exact Sql.readsText_text_iff spells.formula fits
  · exact (spells.truth truth).trans (holds_map leafText condition)

/-- SQL reads the text of a condition in one way, and as a formula over the same texts in the same
order that holds in the same cases.  It reads the nested text in one way, too: as one operand or as
a formula in parentheses.  In a larger formula it reads the nested text as it reads it alone. -/
theorem text_reads {condition : Condition String} (solid : condition.isSolid String.isEmpty = true)
    (atomic : ∀ text ∈ condition.leaves, isAtomic text = true) :
    (∃ phrase, (∀ other, ReadsText (condition.text id) other ↔ other = phrase) ∧
      phrase.operands = condition.leaves ∧
      ∀ truth, truthOf truth phrase = condition.holds truth) ∧
    ∃ phrase, (∀ other, ReadsText (condition.nestedText id) other ↔ other = phrase) ∧
      phrase.operands = condition.leaves ∧
      (∀ truth, truthOf truth phrase = condition.holds truth) ∧
      phrase.isUnit = true ∧
      ∀ shape : Phrase, IsFrame shape → shape.fits .sql 1 = true →
        ∀ other, ReadsText (shape.fragment.textWith (condition.nestedText id)) other ↔
          other = shape.fill phrase phrase true := by
  obtain ⟨⟨bare, spells, fits⟩, nested, spellsNested⟩ := spelling_written condition solid atomic
  have isBare : bare.fragment.text = condition.text id := by
    rw [spells.written, text_map_lexeme]
    rfl
  have isNested : nested.fragment.text = condition.nestedText id := by
    rw [spellsNested.written, text_map_lexeme]
    rfl
  refine ⟨⟨bare, ?_, spells.operands, spells.truth⟩, nested, ?_, spellsNested.operands,
    spellsNested.truth, spellsNested.unit, ?_⟩
  · rw [← isBare]
    exact Sql.readsText_text_iff spells.formula fits
  · rw [← isNested]
    exact Sql.readsText_text_iff spellsNested.formula (spellsNested.fits 1)
  · intro shape frame shapeFits
    rw [← isNested]
    exact frame.readsText_fill_iff shapeFits spellsNested.formula spellsNested.fits

/-- An operator in quotes is part of a text, and so is one in the brackets of a test. -/
def quotedOperator : Condition String :=
  all [leaf "a0.value = ' OR '",
    any [leaf "EXISTS (SELECT 1 WHERE x AND y)", all [any [leaf "b", leaf "b"]]], any [leaf "c"]]

theorem text_reads_quotedOperator :
    (∃ phrase, (∀ other, ReadsText
        "a0.value = ' OR ' AND (EXISTS (SELECT 1 WHERE x AND y) OR (b OR b)) AND c" other ↔
          other = phrase) ∧
      phrase.operands =
        ["a0.value = ' OR '", "EXISTS (SELECT 1 WHERE x AND y)", "b", "b", "c"] ∧
      ∀ truth, truthOf truth phrase = quotedOperator.holds truth) ∧
    ∃ phrase, phrase.isUnit = true ∧
      (∀ truth, truthOf truth phrase = quotedOperator.holds truth) ∧
      ∀ other, ReadsText
        "NOT (a0.value = ' OR ' AND (EXISTS (SELECT 1 WHERE x AND y) OR (b OR b)) AND c)" other ↔
          other = .unary .not phrase := by
  have solid : quotedOperator.isSolid String.isEmpty = true := by decide +kernel
  have atomic : ∀ text ∈ quotedOperator.leaves, isAtomic text = true := by decide +kernel
  obtain ⟨outermost, phrase, -, -, truth, unit, framed⟩ := text_reads solid atomic
  refine ⟨?_, phrase, unit, truth, ?_⟩
  · have text : quotedOperator.text id =
        "a0.value = ' OR ' AND (EXISTS (SELECT 1 WHERE x AND y) OR (b OR b)) AND c" := by
      decide +kernel
    rw [text] at outermost
    exact outermost
  · have text : Fragment.textWith (quotedOperator.nestedText id) [.not, .given ""] =
        "NOT (a0.value = ' OR ' AND (EXISTS (SELECT 1 WHERE x AND y) OR (b OR b)) AND c)" := by
      decide +kernel
    rw [← text]
    exact framed (.unary .not (.operand (.given "") rfl)) (.not (.operand (.inl rfl))) rfl

end Condition

end CypherSql
