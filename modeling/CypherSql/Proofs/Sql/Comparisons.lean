import CypherSql.Proofs.Sql.Rows
import CypherSql.Proofs.Sql.Scanning
import CypherSql.Proofs.Sql.Texts

/-! # Comparisons are read from their text

A comparison is given as text: a column of a row, named as the text names it, is compared with
another column or with a text between quotes.

* `comparisonHolds` — whether a text holds for rows, by the tokens it is read as.
* `Uncommented` — a text that no comment hides a part of, wherever it stands.
* `isCalm`, `isInert` — characters that begin no comment, and those that begin no operator either.
* `Test.comparisonHolds_text` — the text of a test says what the test says.
* `Test.isAtomic_text` — the text of a test is one operand of a formula.
-/

namespace CypherSql.Sql

open CypherSql.Text (continuesName)

/-! ## Comparisons -/

def Token.isEquals : Token → Bool
  | .mark symbol => symbol == '='
  | _ => false

section

variable {V : Type} (constant : String → V) (rows : String → Record V)

/-- What one side of a comparison stands for. -/
def sideValue : List Token → Option V
  | [.word row, .mark '.', .word column] => rows row column
  | [.quoted text] => some (constant text)
  | _ => none

/-- Whether a text that compares with `=` holds for the rows that it names. -/
def comparisonHolds [DecidableEq V] (text : String) : Bool :=
  match (tokens text).map (List.splitOnP Token.isEquals) with
  | some [left, right] => equal (sideValue constant rows left) (sideValue constant rows right)
  | _ => false

end

/-! ## Texts without comments -/

/-- No comment begins in a text or where it ends, whatever follows, and its quotes are closed. -/
def Uncommented (text : String) : Prop :=
  ∀ rest, commentBegins false (text.toList ++ rest) = commentBegins false rest

theorem Uncommented.hasComment {text : String} (uncommented : Uncommented text) :
    hasComment text = false := by
  simpa [Sql.hasComment, commentBegins] using uncommented []

theorem Uncommented.append {first second : String} (left : Uncommented first)
    (right : Uncommented second) : Uncommented (first ++ second) := by
  intro rest
  rw [String.toList_append, List.append_assoc, left, right]

theorem uncommented_empty : Uncommented "" :=
  fun _ => rfl

theorem uncommented_intercalate {separator : String} (between : Uncommented separator)
    {texts : List String} (each : ∀ text ∈ texts, Uncommented text) :
    Uncommented (separator.intercalate texts) := by
  induction texts with
  | nil => exact uncommented_empty
  | cons text rest ih =>
    obtain ⟨first, others⟩ := List.forall_mem_cons.mp each
    cases rest with
    | nil => rwa [String.intercalate_singleton]
    | cons second rest =>
      rw [String.intercalate_cons_cons]
      exact (first.append between).append (ih others)

theorem commentBegins_quoted {letters : List Char} (closed : '\'' ∉ letters) (rest : List Char) :
    commentBegins true (letters ++ '\'' :: rest) = commentBegins false rest := by
  induction letters with
  | nil => simp [commentBegins]
  | cons c letters ih =>
    obtain ⟨other, closed⟩ := List.ne_and_not_mem_of_not_mem_cons closed
    have stays : (c == '\'') = false := beq_eq_false_iff_ne.mpr other.symm
    rw [List.cons_append, commentBegins, stays, ← ih closed]
    rfl

theorem uncommented_quoted {text : String} (closed : '\'' ∉ text.toList) :
    Uncommented ("'" ++ text ++ "'") := by
  intro rest
  have letters : ("'" ++ text ++ "'").toList ++ rest = '\'' :: (text.toList ++ '\'' :: rest) := by
    simp
  rw [letters, commentBegins, ← commentBegins_quoted closed rest]
  rfl

/-! ## Characters -/

/-- A character that begins no comment and opens no quote. -/
def isCalm (c : Char) : Bool :=
  !(['#', '-', '/', '\''].contains c)

/-- A character that begins no operator either, and that neither opens nor closes anything. -/
def isInert (c : Char) : Bool :=
  isCalm c && !(['(', ')', ' '].contains c)

theorem isInert_of_continuesName {c : Char} (continues : continuesName c = true) :
    isInert c = true := by
  have others : ['#', '-', '/', '\'', '(', ')', ' '].all (fun other => !continuesName other) = true := by
    decide
  have apart : ∀ other ∈ ['#', '-', '/', '\'', '(', ')', ' '], c ≠ other := by
    rintro _ isOther rfl
    simpa [continues] using List.all_eq_true.mp others c isOther
  simpa [isInert, isCalm, and_assoc] using apart

theorem commentBegins_calm {c : Char} (calm : isCalm c = true) (rest : List Char) :
    commentBegins false (c :: rest) = commentBegins false rest := by
  obtain ⟨noHash, noDash, noSlash, noQuote⟩ : c ≠ '#' ∧ c ≠ '-' ∧ c ≠ '/' ∧ c ≠ '\'' := by
    simpa [isCalm] using calm
  have begins : (c == '#' || ['-', '-'].isPrefixOf (c :: rest) ||
      ['/', '*'].isPrefixOf (c :: rest)) = false := by
    simp [List.isPrefixOf, noHash, noDash.symm, noSlash.symm]
  rw [commentBegins, begins, beq_eq_false_iff_ne.mpr noQuote]
  rfl

theorem staysOperand_inert {c : Char} (inert : isInert c = true) (rest : List Char) :
    staysOperand .outer (c :: rest) = staysOperand .outer rest := by
  obtain ⟨⟨-, -, -, noQuote⟩, noOpening, noClosing, noSpace⟩ :
      (c ≠ '#' ∧ c ≠ '-' ∧ c ≠ '/' ∧ c ≠ '\'') ∧ c ≠ '(' ∧ c ≠ ')' ∧ c ≠ ' ' := by
    simpa [isInert, isCalm] using inert
  have next : Nesting.outer.next c = .outer := by
    simp [Nesting.next, Nesting.outer, noQuote, noOpening, noClosing]
  have goesOn : endsOperand (c :: rest ++ [' ']) = false := by
    simp [endsOperand, List.isPrefixOf, noClosing.symm, noSpace.symm]
  rw [staysOperand, next, goesOn, Bool.and_false, Bool.not_false, Bool.true_and]

theorem uncommented_of_calm {text : String} (calm : text.toList.all isCalm = true) :
    Uncommented text := by
  intro rest
  generalize text.toList = letters at calm
  induction letters with
  | nil => rfl
  | cons c letters ih =>
    rw [List.all_cons, Bool.and_eq_true] at calm
    rw [List.cons_append, commentBegins_calm calm.1, ih calm.2]

theorem uncommented_of_inert {text : String} (inert : text.toList.all isInert = true) :
    Uncommented text :=
  uncommented_of_calm (List.all_eq_true.mpr fun c isOne =>
    (Bool.and_eq_true_iff.mp (List.all_eq_true.mp inert c isOne)).1)

theorem all_isInert_of_isWord {text : String} (isOne : isWord text = true) :
    text.toList.all isInert = true :=
  List.all_eq_true.mpr fun c isLetter =>
    isInert_of_continuesName (List.all_eq_true.mp isOne c isLetter)

theorem uncommented_of_isWord {text : String} (isOne : isWord text = true) : Uncommented text :=
  uncommented_of_inert (all_isInert_of_isWord isOne)

theorem staysOperand_append {letters : List Char} (inert : letters.all isInert = true)
    (rest : List Char) : staysOperand .outer (letters ++ rest) = staysOperand .outer rest := by
  induction letters with
  | nil => rfl
  | cons c letters ih =>
    rw [List.all_cons, Bool.and_eq_true] at inert
    rw [List.cons_append, staysOperand_inert inert.1, ih inert.2]

theorem staysOperand_quoted {letters : List Char} (closed : '\'' ∉ letters) :
    staysOperand ⟨0, true⟩ (letters ++ ['\'']) = true := by
  induction letters with
  | nil => decide
  | cons c letters ih =>
    obtain ⟨other, closed⟩ := List.ne_and_not_mem_of_not_mem_cons closed
    have stays : Nesting.next ⟨0, true⟩ c = ⟨0, true⟩ := by
      simp [Nesting.next, other.symm]
    rw [List.cons_append, staysOperand, stays, ih closed]
    rfl

/-! ## Tests -/

/-- The name of a row of a slot begins no operator. -/
theorem Alias.text_begins {row : Alias} (isSlot : row.isSlot = true) :
    ∃ c rest, row.text.toList = c :: rest ∧ c ∈ ['a', 'r'] := by
  cases row with
  | outer slot | inner slot =>
    cases isKind : slot.kind <;> simp [Alias.text, letter, isKind]
  | named => contradiction

/-- A text that may stand to the right of `=`: it begins no operator, and is one operand. -/
structure IsSide (text : String) : Prop where
  begins : text.toList.head?.all fun c => ['a', 'r', '\''].contains c
  stays : staysOperand .outer text.toList = true
  uncommented : Uncommented text

theorem isSide_quoted {text : String} (closed : '\'' ∉ text.toList) :
    IsSide ("'" ++ text ++ "'") where
  begins := by simp
  stays := by
    have opened : staysOperand .outer ('\'' :: (text.toList ++ ['\''])) =
        staysOperand ⟨0, true⟩ (text.toList ++ ['\'']) := by
      simp [staysOperand, endsOperand, List.isPrefixOf, Nesting.next, Nesting.outer]
    have letters : ("'" ++ text ++ "'").toList = '\'' :: (text.toList ++ ['\'']) := by simp
    rw [letters, opened, staysOperand_quoted closed]
  uncommented := uncommented_quoted closed

theorem isInert_column {row : Alias} (isSlot : row.isSlot = true) {column : String}
    (isName : isWord column = true) : (row.text ++ "." ++ column).toList.all isInert = true := by
  have point : ".".toList.all isInert = true := by decide
  rw [String.toList_append, String.toList_append, List.all_append, List.all_append,
    all_isInert_of_isWord (Alias.isWord_text isSlot), point, all_isInert_of_isWord isName]
  rfl

theorem isSide_column {row : Alias} (isSlot : row.isSlot = true) {column : String}
    (isName : isWord column = true) : IsSide (row.text ++ "." ++ column) where
  begins := by
    obtain ⟨c, rest, isText, isFirst⟩ := Alias.text_begins isSlot
    rcases List.mem_pair.mp isFirst with rfl | rfl <;> simp [isText]
  stays := by
    rw [← List.append_nil (String.toList _), staysOperand_append (isInert_column isSlot isName)]
    rfl
  uncommented := uncommented_of_inert (isInert_column isSlot isName)

section

variable {row : Alias} {column side : String} (isSlot : row.isSlot = true)
  (isName : isWord column = true) (isSide : IsSide side)

include isSlot isName isSide

theorem uncommented_comparison : Uncommented (row.text ++ "." ++ column ++ " = " ++ side) := by
  have equals : Uncommented " = " := uncommented_of_calm (by decide)
  exact ((uncommented_of_inert (isInert_column isSlot isName)).append equals).append
    isSide.uncommented

theorem isAtomic_comparison : isAtomic (row.text ++ "." ++ column ++ " = " ++ side) = true := by
  have ends : endsOperand (' ' :: side.toList ++ [' ']) = false := by
    have begins := isSide.begins
    generalize side.toList = letters at begins
    cases letters with
    | nil => rfl
    | cons c rest =>
      simp only [List.head?_cons, Option.all_some, List.contains_eq_mem, decide_eq_true_eq,
        List.mem_cons, List.not_mem_nil, or_false] at begins
      rcases begins with rfl | rfl | rfl <;> simp [endsOperand, List.isPrefixOf]
  have equals : staysOperand .outer (' ' :: '=' :: ' ' :: side.toList) = true := by
    have next : Nesting.outer.next ' ' = .outer := by decide
    have first : endsOperand (' ' :: '=' :: ' ' :: side.toList ++ [' ']) = false := by
      simp [endsOperand, List.isPrefixOf]
    rw [staysOperand, first, next, staysOperand_inert (by decide), staysOperand, ends, next,
      isSide.stays]
    rfl
  obtain ⟨c, rest, isText, isFirst⟩ := Alias.text_begins isSlot
  have letters : (row.text ++ "." ++ column ++ " = " ++ side).toList =
      (row.text ++ "." ++ column).toList ++ ' ' :: '=' :: ' ' :: side.toList := by
    simp [String.toList_append]
  have opens : opensOperand ((row.text ++ "." ++ column ++ " = " ++ side).toList ++ [' ']) = false := by
    rcases List.mem_pair.mp isFirst with rfl | rfl <;>
      simp [isText, opensOperand, List.isPrefixOf]
  rw [isAtomic, opens, letters, staysOperand_append (isInert_column isSlot isName), equals]
  simp

end

/-- A test compares a column of a row with a text or with another column. -/
theorem Test.text_eq {test : Test} (plain : test.IsPlain) :
    ∃ (row : Alias) (column side : String), test.text = row.text ++ "." ++ column ++ " = " ++ side ∧
      row.isSlot = true ∧ isWord column = true ∧ IsSide side := by
  have point : ".id" = "." ++ "id" := rfl
  cases test with
  | hasType row label =>
    refine ⟨row, "type", "'" ++ label ++ "'", ?_, plain.1, by decide, isSide_quoted plain.2⟩
    have equals : ".type = '" = "." ++ "type" ++ " = " ++ "'" := rfl
    simp only [Test.text, equals, String.append_assoc]
  | sameId left right =>
    refine ⟨left, "id", right.text ++ "." ++ "id", ?_, plain.1, by decide,
      isSide_column plain.2 (by decide)⟩
    have equals : ".id = " = "." ++ "id" ++ " = " := rfl
    simp only [Test.text, equals, point, String.append_assoc]
  | runsFrom relation node =>
    refine ⟨relation, "from_id", node.text ++ "." ++ "id", ?_, plain.1, by decide,
      isSide_column plain.2 (by decide)⟩
    have equals : ".from_id = " = "." ++ "from_id" ++ " = " := rfl
    simp only [Test.text, equals, point, String.append_assoc]
  | runsTo relation node =>
    refine ⟨relation, "to_id", node.text ++ "." ++ "id", ?_, plain.1, by decide,
      isSide_column plain.2 (by decide)⟩
    have equals : ".to_id = " = "." ++ "to_id" ++ " = " := rfl
    simp only [Test.text, equals, point, String.append_assoc]

theorem Test.uncommented_text {test : Test} (plain : test.IsPlain) : Uncommented test.text := by
  obtain ⟨row, column, side, isText, isSlot, isName, isSide⟩ := Test.text_eq plain
  exact isText ▸ uncommented_comparison isSlot isName isSide

theorem Test.isAtomic_text {test : Test} (plain : test.IsPlain) : isAtomic test.text = true := by
  obtain ⟨row, column, side, isText, isSlot, isName, isSide⟩ := Test.text_eq plain
  exact isText ▸ isAtomic_comparison isSlot isName isSide

/-- What a test says of rows is what SQL reads in its text. -/
theorem Test.comparisonHolds_text {V : Type} [DecidableEq V] {test : Test} (plain : test.IsPlain)
    (constant : String → V) (rows : String → Record V) :
    comparisonHolds constant rows test.text = test.holds constant fun row => rows row.text := by
  rw [comparisonHolds, (Test.scans plain).tokens_eq (Test.uncommented_text plain).hasComment]
  cases test <;> rfl

end CypherSql.Sql
