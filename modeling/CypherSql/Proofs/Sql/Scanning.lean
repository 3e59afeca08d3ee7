import CypherSql.Proofs.Condition.Leaves
import CypherSql.Proofs.Sql.Phrases
import CypherSql.Proofs.Sql.Selects

/-! # Conditions and their tests are read from their text

Where names are plain and no text holds a quote, columns, constants and tests are read as words,
texts and marks.  Conditions put parentheses around some of their parts.

* `Condition.scans` — the tokens of a condition have what its leaves have and logic keeps.
* `isReserved` — names that are keywords of a `SELECT`.
* `scans_field`, `scans_literal` — the tokens of columns and of constants.
* `Test.IsPlain`, `Test.scans` — the tokens of tests between slots.
-/

namespace CypherSql

open CypherSql.Sql

/-! ## Conditions -/

namespace Condition

/-- A property of rows of tokens that operators of logic and parentheses keep. -/
structure KeptByLogic (P : List Sql.Token → Prop) : Prop where
  joined : ∀ keyword ∈ ["AND", "OR"], ∀ left right, P left → P right →
    P (left ++ ([.word keyword] ++ right))
  group : ∀ row, P row → P [.group row]

theorem KeptByLogic.and {P Q : List Sql.Token → Prop} (first : KeptByLogic P)
    (second : KeptByLogic Q) : KeptByLogic fun row => P row ∧ Q row where
  joined keyword isOne left right ofLeft ofRight :=
    ⟨first.joined keyword isOne left right ofLeft.1 ofRight.1,
      second.joined keyword isOne left right ofLeft.2 ofRight.2⟩
  group row holds := ⟨first.group row holds.1, second.group row holds.2⟩

variable {α : Type}

/-- The text of written words. -/
def wordsText (leafText : α → String) (words : List (Token α)) : String :=
  String.join (words.map (Token.text leafText))

theorem wordsText_append (leafText : α → String) (first second : List (Token α)) :
    wordsText leafText (first ++ second) = wordsText leafText first ++ wordsText leafText second := by
  simp [wordsText]

/-- Words are read as a row with a property. -/
def ScansWith (P : List Sql.Token → Prop) (leafText : α → String) (words : List (Token α)) : Prop :=
  ∃ row, Scans .start .finish (wordsText leafText words) row ∧ P row

/-- Both written forms are read as rows with a property. -/
structure Legible (P : List Sql.Token → Prop) (leafText : α → String) (written : Written α) :
    Prop where
  bare : ScansWith P leafText written.bare
  nested : ScansWith P leafText written.nested

section

variable {P : List Sql.Token → Prop} {leafText : α → String}

theorem scansWith_joined (kept : KeptByLogic P) {operator : Token α} {keyword : String}
    (isOne : keyword ∈ ["AND", "OR"]) (text : operator.text leafText = " " ++ keyword ++ " ")
    {parts : List (Written α)} (present : parts ≠ [])
    (each : ∀ part ∈ parts, ScansWith P leafText part.nested) :
    ScansWith P leafText ([operator].intercalate (parts.map Written.nested)) := by
  have separates : Scans .finish .start (operator.text leafText) [.word keyword] := by
    rw [text]
    rcases List.mem_pair.mp isOne with rfl | rfl <;>
      exact scans_spaced _ (by decide) (by decide)
  induction parts with
  | nil => contradiction
  | cons first rest ih =>
    obtain ⟨⟨row, scans, holds⟩, each⟩ := List.forall_mem_cons.mp each
    cases rest with
    | nil => simpa [List.intercalate] using ⟨row, scans, holds⟩
    | cons second rest =>
      obtain ⟨others, scansOthers, holdsOthers⟩ := ih (List.cons_ne_nil _ _) each
      refine ⟨row ++ ([.word keyword] ++ others), ?_, kept.joined keyword isOne _ _ holds holdsOthers⟩
      rw [List.map_cons, List.map_cons, List.intercalate_cons_cons, wordsText_append,
        wordsText_append, ← List.append_assoc]
      refine (scans.append ?_).append scansOthers
      simpa [wordsText] using separates

/-- Where no part is left, nothing is written. -/
theorem legible_joined (kept : KeptByLogic P) {operator : Token α} (keyword : String)
    (isOne : keyword ∈ ["AND", "OR"]) (text : operator.text leafText = " " ++ keyword ++ " ")
    {parts : List (Written α)}
    (each : ∀ part ∈ parts, Legible P leafText part) :
    Written.joined operator parts = .nothing ∨ Legible P leafText (.joined operator parts) := by
  match parts with
  | [] => exact .inl rfl
  | [only] => exact .inr (each only List.mem_cons_self)
  | first :: second :: rest =>
    have bare := scansWith_joined kept isOne text (List.cons_ne_nil first (second :: rest))
      fun part isPart => (each part isPart).nested
    refine .inr ⟨bare, ?_⟩
    obtain ⟨row, scans, holds⟩ := bare
    refine ⟨[.group row], ?_, kept.group row holds⟩
    have inside : wordsText leafText (Written.joined operator (first :: second :: rest)).nested =
        "(" ++ wordsText leafText
          ([operator].intercalate ((first :: second :: rest).map Written.nested)) ++ ")" := by
      change wordsText leafText ([.opening] ++ _ ++ [.closing]) = _
      rw [wordsText_append, wordsText_append]
      rfl
    rw [inside]
    exact (scans_group scans).anywhere.loosen

mutual

theorem legible_written (blank : α → Bool) (kept : KeptByLogic P) : ∀ condition : Condition α,
    (∀ value ∈ condition.leaves, ∃ row, Scans .start .finish (leafText value) row ∧ P row) →
      condition.written blank = .nothing ∨ Legible P leafText (condition.written blank)
  | leaf value, each => by
    have words : ScansWith P leafText [.leaf value] := by
      simpa [ScansWith, wordsText, Token.text] using each
    exact .inr ⟨words, words⟩
  | all children, each =>
    legible_joined kept "AND" (by simp) rfl
      (legible_writtenChildren blank kept children (leaves_all children ▸ each))
  | any children, each =>
    legible_joined kept "OR" (by simp) rfl
      (legible_writtenChildren blank kept children (leaves_any children ▸ each))

/-- A part that leaves no trace is passed over. -/
theorem legible_writtenChildren (blank : α → Bool) (kept : KeptByLogic P) : ∀ children : List (Condition α),
    (∀ value ∈ children.flatMap leaves, ∃ row, Scans .start .finish (leafText value) row ∧ P row) →
      ∀ part ∈ writtenChildren blank children, Legible P leafText part
  | [], _ => List.forall_mem_nil _
  | child :: rest, each => by
    rw [List.flatMap_cons, List.forall_mem_append] at each
    have others := legible_writtenChildren blank kept rest each.2
    rw [writtenChildren]
    split
    · exact others
    · next traced =>
      refine List.forall_mem_cons.mpr ⟨(legible_written blank kept child each.1).resolve_left ?_, others⟩
      intro none
      exact traced (none ▸ rfl)

end

/-- A condition is written as nothing, or its text is read as a row with a property that its leaves
have and that logic keeps. -/
theorem scans (kept : KeptByLogic P) (condition : Condition α)
    (each : ∀ value ∈ condition.leaves, ∃ row, Scans .start .finish (leafText value) row ∧ P row) :
    condition.text leafText = "" ∨
      ∃ row, Scans .start .finish (condition.text leafText) row ∧ P row := by
  have legible := legible_written (fun value => (leafText value).isEmpty) kept condition each
  rw [text, tokens]
  rcases legible with none | legible
  · exact .inl (none ▸ rfl)
  · exact .inr legible.bare

end

end Condition

namespace Sql

open CypherSql.Cypher
open CypherSql.Graph (Slot SlotKind)
open CypherSql.Text (isIdentifier sameIgnoringCase)

/-! ## Reserved names -/

/-- The keywords are words of letters. -/
theorem isReserved_eq_false_of_mem {name : String} {c : Char} (isOne : c ∈ name.toList)
    (other : c.isAlpha = false) : isReserved name = false := by
  have same : c.toLower = c := by
    refine Char.toLower_eq_of_not_isUpper fun upper => ?_
    simp [Char.isAlpha, upper] at other
  have letters : ∀ keyword ∈ keywords, (keyword.toList.map Char.toLower).all Char.isAlpha = true := by
    decide
  refine List.any_eq_false.mpr fun keyword isKeyword isSame => ?_
  rw [sameIgnoringCase, beq_iff_eq] at isSame
  have there : c ∈ keyword.toList.map Char.toLower :=
    isSame ▸ List.mem_map.mpr ⟨c, isOne, same⟩
  exact Bool.eq_false_iff.mp other (List.all_eq_true.mp (letters keyword isKeyword) c there)

theorem not_isAlpha_of_isDigit {c : Char} (digit : c.isDigit = true) : c.isAlpha = false := by
  simp only [Char.isDigit, Char.isAlpha, Char.isUpper, Char.isLower, Bool.and_eq_true,
    Bool.or_eq_false_iff, decide_eq_true_eq, ge_iff_le, Bool.and_eq_false_iff,
    decide_eq_false_iff_not, not_and, not_le, UInt32.le_iff_toNat_le] at *
  have bounds : 'A'.val.toNat = 65 ∧ 'Z'.val.toNat = 90 ∧ 'a'.val.toNat = 97 ∧
      '0'.val.toNat = 48 ∧ '9'.val.toNat = 57 := by decide
  omega

theorem isReserved_of_isNumber {text : String} (number : isNumber text = true) :
    isReserved text = false := by
  rw [isNumber, Bool.and_eq_true, Bool.not_eq_true', List.isEmpty_eq_false_iff] at number
  obtain ⟨c, rest, isText⟩ := List.exists_cons_of_ne_nil number.1
  have isOne : c ∈ text.toList := isText ▸ List.mem_cons_self
  exact isReserved_eq_false_of_mem isOne
    (not_isAlpha_of_isDigit (List.all_eq_true.mp number.2 c isOne))

/-! ## Rows and their columns -/

def Alias.isSlot : Alias → Bool
  | .named _ => false
  | .outer _ | .inner _ => true

section

variable {row : Alias} (isSlot : row.isSlot = true)

include isSlot

/-- A row of a slot is named by letters and a number. -/
theorem Alias.text_eq_of_isSlot : ∃ (letters : String) (number : Nat),
    row.text = letters ++ toString number ∧ isWord letters = true := by
  cases row with
  | outer slot => exact ⟨letter slot.kind, slot.index, rfl, by cases slot.kind <;> decide⟩
  | inner slot => exact ⟨letter slot.kind ++ "w", slot.index, rfl, by cases slot.kind <;> decide⟩
  | named => contradiction

theorem Alias.exists_digit : ∃ c ∈ row.text.toList, c.isDigit = true := by
  obtain ⟨letters, number, isText, -⟩ := Alias.text_eq_of_isSlot isSlot
  have digits := isNumber_toString number
  rw [isNumber, Bool.and_eq_true, Bool.not_eq_true', List.isEmpty_eq_false_iff] at digits
  obtain ⟨c, rest, isNumber⟩ := List.exists_cons_of_ne_nil digits.1
  have isOne : c ∈ (toString number).toList := isNumber ▸ List.mem_cons_self
  refine ⟨c, ?_, List.all_eq_true.mp digits.2 c isOne⟩
  rw [isText, String.toList_append]
  exact List.mem_append_right _ isOne

theorem Alias.isWord_text : isWord row.text = true := by
  obtain ⟨letters, number, isText, areWord⟩ := Alias.text_eq_of_isSlot isSlot
  rw [isText, isWord_append, areWord, isWord_of_isNumber (isNumber_toString number)]
  rfl

theorem scans_alias : Scans .start .finish row.text [.word row.text] := by
  refine scans_word _ ?_ (Alias.isWord_text isSlot)
  intro none
  obtain ⟨c, isOne, -⟩ := Alias.exists_digit isSlot
  simp [none] at isOne

theorem isReserved_alias : isReserved row.text = false := by
  obtain ⟨c, isOne, digit⟩ := Alias.exists_digit isSlot
  exact isReserved_eq_false_of_mem isOne (not_isAlpha_of_isDigit digit)

end

theorem scans_identifier {name : String} (isName : isIdentifier name = true) :
    Scans .start .finish name [.word name] :=
  scans_word _ (ne_empty_of_isIdentifier isName) (isWord_of_isIdentifier isName)

theorem scans_point : Scans .finish .start "." [.mark '.'] :=
  scans_mark _ rfl (by decide)

/-! ## Operands without parentheses -/

namespace Token

/-- A token that neither separates others nor holds others. -/
def isSimple (token : Token) : Bool :=
  !token.isComma && !token.isGroup

theorem isComma_of_isSimple {token : Token} (simple : token.isSimple = true) :
    token.isComma = false := by
  simp only [isSimple, Bool.and_eq_true, Bool.not_eq_true'] at simple
  exact simple.1

theorem isGroup_of_isSimple {token : Token} (simple : token.isSimple = true) :
    token.isGroup = false := by
  simp only [isSimple, Bool.and_eq_true, Bool.not_eq_true'] at simple
  exact simple.2

end Token

/-- What follows one member of a row follows the separator, too. -/
theorem forall_mem_intercalate {α : Type} {P : α → Prop} {separator : List α} {rows : List (List α)}
    (between : ∀ x ∈ separator, P x) (each : ∀ row ∈ rows, ∀ x ∈ row, P x) :
    ∀ x ∈ separator.intercalate rows, P x := by
  induction rows with
  | nil => exact List.forall_mem_nil _
  | cons row rest ih =>
    obtain ⟨first, each⟩ := List.forall_mem_cons.mp each
    cases rest with
    | nil => simpa [List.intercalate] using first
    | cons second rest =>
      rw [List.intercalate_cons_cons, List.forall_mem_append, List.forall_mem_append]
      exact ⟨⟨first, between⟩, ih each⟩

/-- The tokens of a column of a row. -/
def fieldTokens (row : Alias) (path : List String) : List Token :=
  [.word row.text, .mark '.'] ++ [.mark '.'].intercalate (path.map fun name => [.word name])

section

variable {row : Alias} {path : List String}

theorem scans_field (isSlot : row.isSlot = true) (present : path ≠ [])
    (names : ∀ name ∈ path, isIdentifier name = true) :
    Scans .start .finish (Lexeme.field row path).text (fieldTokens row path) := by
  have each : List.Forall₂ (Scans .start .finish) path (path.map fun name => [.word name]) := by
    rw [List.forall₂_map_right_iff, List.forall₂_same]
    exact fun name isOne => scans_identifier (names name isOne)
  exact ((scans_alias isSlot).append scans_point).append (scans_point.intercalate present each)

theorem simple_fieldTokens : ∀ token ∈ fieldTokens row path, token.isSimple = true := by
  rw [fieldTokens, List.forall_mem_append]
  refine ⟨by simp [Token.isSimple, Token.isComma, Token.isGroup], ?_⟩
  refine forall_mem_intercalate (by simp [Token.isSimple, Token.isComma, Token.isGroup]) ?_
  simp [Token.isSimple, Token.isComma, Token.isGroup]

theorem quiet_fieldTokens (isSlot : row.isSlot = true)
    (names : ∀ name ∈ path, isReserved name = false) :
    ∀ token ∈ fieldTokens row path, token.isKeyword = false := by
  have point : (Token.mark '.').isKeyword = false := by decide
  rw [fieldTokens, List.forall_mem_append, List.forall_mem_cons, List.forall_mem_singleton]
  refine ⟨⟨isReserved_alias isSlot, point⟩, ?_⟩
  refine forall_mem_intercalate (List.forall_mem_singleton.mpr point) ?_
  simpa [isKeyword_word] using names

end

/-! ## Constants -/

theorem isNumber_ofList {letters : List Char} (present : letters ≠ [])
    (digits : ∀ c ∈ letters, c.isDigit = true) : isNumber (String.ofList letters) = true := by
  simpa [isNumber, present] using digits

/-- A point with digits on both sides. -/
theorem withPoint_eq {digits : List Char} (present : digits ≠ [])
    (each : ∀ c ∈ digits, c.isDigit = true) (places : Nat) (some : 0 < places) :
    ∃ whole fraction, Decimal.withPoint digits places = whole ++ '.' :: fraction ∧
      isNumber (String.ofList whole) = true ∧ isNumber (String.ofList fraction) = true := by
  unfold Decimal.withPoint
  split
  · next fewer =>
    refine ⟨_, _, rfl, isNumber_ofList ?_ ?_, isNumber_ofList ?_ ?_⟩
    · simp [present]
      omega
    · exact fun c isOne => each c (List.mem_of_mem_take isOne)
    · simp
      omega
    · exact fun c isOne => each c (List.mem_of_mem_drop isOne)
  · refine ⟨['0'], _, rfl, by decide, isNumber_ofList (by simp [present]) ?_⟩
    intro c isOne
    rcases List.mem_append.mp isOne with isZero | isDigit
    · rw [List.eq_of_mem_replicate isZero]
      rfl
    · exact each c isDigit

theorem scans_number {text : String} (number : isNumber text = true) :
    Scans .start .finish text [.word text] := by
  refine scans_word _ ?_ (isWord_of_isNumber number)
  rintro rfl
  contradiction

/-- The tokens of an operand that is made of words, texts and marks. -/
structure ScansSimply (text : String) (row : List Token) : Prop where
  scans : Scans .start .finish text row
  present : row ≠ []
  simple : ∀ token ∈ row, token.isSimple = true

theorem scansSimply_word {text : String} (scans : Scans .start .finish text [.word text]) :
    ScansSimply text [.word text] :=
  ⟨scans, List.cons_ne_nil _ _, List.forall_mem_singleton.mpr rfl⟩

theorem scans_sixPlaces (value : Decimal.Binary64) : ∃ row,
    ScansSimply (String.ofList value.sixPlaces) row ∧ ∀ token ∈ row, token.isKeyword = false := by
  cases value with
  | infinite =>
    exact ⟨[.word "inf"], scansSimply_word (scans_word _ (by decide) (by decide)),
      List.forall_mem_singleton.mpr (by decide)⟩
  | finite significand exponent =>
    obtain ⟨number, isNumber⟩ : ∃ number,
        (Decimal.Binary64.finite significand exponent).sixPlaces =
          Decimal.withPoint (Decimal.digits number) 6 := ⟨_, rfl⟩
    have digits : ∀ c ∈ Decimal.digits number, c.isDigit = true :=
      fun c isOne => Nat.isDigit_of_mem_toDigits (by decide) (by decide) isOne
    have present : Decimal.digits number ≠ [] := Nat.toDigits_ne_nil
    obtain ⟨whole, fraction, isText, isWhole, isFraction⟩ :=
      withPoint_eq present digits 6 (by decide)
    have text : String.ofList (whole ++ '.' :: fraction) =
        String.ofList whole ++ "." ++ String.ofList fraction := by
      apply String.toList_inj.mp
      simp
    refine ⟨[.word (String.ofList whole)] ++ [.mark '.'] ++ [.word (String.ofList fraction)],
      ⟨?_, by simp, by simp [Token.isSimple, Token.isComma, Token.isGroup]⟩, ?_⟩
    · rw [isNumber, isText, text]
      exact ((scans_number isWhole).append scans_point).append (scans_number isFraction)
    · have point : (Token.mark '.').isKeyword = false := by decide
      simp [isKeyword_word, isReserved_of_isNumber isWhole, isReserved_of_isNumber isFraction, point]

theorem scans_literal {value : Literal} (closed : ∀ text, value = .string text → '\'' ∉ text.toList) :
    ∃ row, ScansSimply (literalText value) row ∧ ∀ token ∈ row, token.isKeyword = false := by
  cases value with
  | string text =>
    exact ⟨[.quoted text], ⟨(scans_quoted (closed text rfl)).anywhere.loosen, List.cons_ne_nil _ _,
      List.forall_mem_singleton.mpr rfl⟩, List.forall_mem_singleton.mpr rfl⟩
  | integer value =>
    have number := isNumber_toString value
    exact ⟨_, scansSimply_word (scans_number number),
      List.forall_mem_singleton.mpr (isReserved_of_isNumber number)⟩
  | float value => exact scans_sixPlaces value
  | boolean value =>
    cases value
    · exact ⟨_, scansSimply_word (scans_word _ (by decide) (by decide)),
        List.forall_mem_singleton.mpr (by decide)⟩
    · exact ⟨_, scansSimply_word (scans_word _ (by decide) (by decide)),
        List.forall_mem_singleton.mpr (by decide)⟩
  | null =>
    exact ⟨_, scansSimply_word (scans_word _ (by decide) (by decide)),
      List.forall_mem_singleton.mpr (by decide)⟩

/-! ## Tests between rows -/

/-- A test between slots, for a label without quotes. -/
def Test.IsPlain : Test → Prop
  | .hasType row label => row.isSlot = true ∧ '\'' ∉ label.toList
  | .sameId left right | .runsFrom left right | .runsTo left right =>
    left.isSlot = true ∧ right.isSlot = true

/-- The tokens of a test.  All of them compare a column with another one or with a text. -/
def Test.tokens : Test → List Token
  | .hasType row label => fieldTokens row ["type"] ++ [.mark '='] ++ [.quoted label]
  | .sameId left right => fieldTokens left ["id"] ++ [.mark '='] ++ fieldTokens right ["id"]
  | .runsFrom relation node =>
    fieldTokens relation ["from_id"] ++ [.mark '='] ++ fieldTokens node ["id"]
  | .runsTo relation node =>
    fieldTokens relation ["to_id"] ++ [.mark '='] ++ fieldTokens node ["id"]

theorem scans_equals : Scans .finish .start " = " [.mark '='] :=
  (scans_space.append (scans_mark "=" rfl (by decide)).anywhere).append
    scans_space.anywhere

theorem scans_column {row : Alias} (isSlot : row.isSlot = true) (column : String)
    (isName : isIdentifier column = true) :
    Scans .start .finish (row.text ++ "." ++ column) (fieldTokens row [column]) := by
  have scans := scans_field isSlot (List.cons_ne_nil column []) (List.forall_mem_singleton.mpr isName)
  rwa [Lexeme.text, String.intercalate_singleton] at scans

theorem Test.scans {test : Test} (plain : test.IsPlain) :
    Scans .start .finish test.text test.tokens := by
  have separated : ∀ first column second : String,
      first ++ "." ++ column ++ " = " ++ (second ++ "." ++ "id") =
        first ++ ("." ++ column ++ " = ") ++ second ++ ".id" := by
    intro first column second
    have point : ".id" = "." ++ "id" := rfl
    simp only [point, String.append_assoc]
  cases test with
  | hasType row label =>
    have scans := (((scans_column plain.1 "type" (by decide)).append
      scans_equals).append (scans_quoted plain.2).anywhere).finish
    have text : ".type = '" = "." ++ "type" ++ " = " ++ "'" := rfl
    rw [Test.text, text]
    simpa only [String.append_assoc, Test.tokens] using scans
  | sameId left right =>
    have scans := ((scans_column plain.1 "id" (by decide)).append scans_equals).append
      (scans_column plain.2 "id" (by decide))
    rwa [separated] at scans
  | runsFrom relation node =>
    have scans := ((scans_column plain.1 "from_id" (by decide)).append
      scans_equals).append (scans_column plain.2 "id" (by decide))
    rwa [separated] at scans
  | runsTo relation node =>
    have scans := ((scans_column plain.1 "to_id" (by decide)).append
      scans_equals).append (scans_column plain.2 "id" (by decide))
    rwa [separated] at scans

end Sql

end CypherSql
