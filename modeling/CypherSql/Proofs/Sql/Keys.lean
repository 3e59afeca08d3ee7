import CypherSql.Proofs.Cypher.Constants
import CypherSql.Proofs.Sql.Branches
import CypherSql.Proofs.Sql.Texts
import CypherSql.Proofs.Sql.Tokens

/-! # How SQL reads a member of `GROUP BY`

A member is a text, and what it denotes depends on how the text looks: a bare number is the position
of a column of the result, the name of a column is that column, and anything else is an expression.

* `readKey` — what a member of `GROUP BY` is read as.
* `KeyReading.Denotes` — it is read as the column with this index.
* `Misleads` — the text of an expression is taken for another column.
* `denotes_readKey_iff` — a key denotes the column that it was made for, unless it has no name and
  its expression misleads.
* `isWord_of_misleads` — which texts can be taken for something else than an expression.
-/

namespace CypherSql.Sql

open CypherSql.Text (isIdentifier startsName)

/-! ## Readings -/

def numberOf (text : String) : Nat :=
  Nat.ofDigitChars 10 text.toList 0

inductive KeyReading where
  /-- A column of the result.  Positions are counted from one. -/
  | position (number : Nat)
  | column (name : String)
  | expression (text : String)
  deriving DecidableEq, Repr

def readKey (columns : List Column) (text : String) : KeyReading :=
  if isNumber text then .position (numberOf text)
  else if columns.any fun column => column.name == some text then .column text
  else .expression text

/-- What is read is the column with this index, and no other one. -/
def KeyReading.Denotes (columns : List Column) (index : Nat) : KeyReading → Prop
  | position number => number = index + 1
  | column name => ∀ other,
      (∃ found, columns[other]? = some found ∧ found.name = some name) ↔ other = index
  | expression text => ∃ found, columns[index]? = some found ∧ found.value.text = text

/-- The text of an expression is taken for another column than the one with this index. -/
def Misleads (columns : List Column) (index : Nat) (text : String) : Prop :=
  if isNumber text then numberOf text ≠ index + 1
  else ∃ column ∈ columns, column.name = some text

section

variable {columns : List Column} {index : Nat} {column : Column}

theorem any_name_iff {text : String} :
    (columns.any fun column => column.name == some text) = true ↔
      ∃ column ∈ columns, column.name = some text := by
  simp

/-- A text is read as the expression of a column unless it misleads.  The column has no name, so one
with that name is another one. -/
theorem denotes_readKey_expression (isColumn : columns[index]? = some column)
    (nameless : column.name = none) :
    (readKey columns column.value.text).Denotes columns index ↔
      ¬Misleads columns index column.value.text := by
  unfold readKey Misleads
  split
  · exact not_not.symm
  · split
    · next named =>
      obtain ⟨other, isOther, hasName⟩ := any_name_iff.mp named
      refine iff_of_false (fun denotes => ?_) (not_not_intro ⟨other, isOther, hasName⟩)
      obtain ⟨found, isFound, foundName⟩ := (denotes index).mpr rfl
      obtain rfl := Option.some.inj (isColumn.symm.trans isFound)
      exact nomatch nameless.symm.trans foundName
    · next unnamed =>
      exact iff_of_true ⟨column, isColumn, rfl⟩ (mt any_name_iff.mpr unnamed)

end

theorem not_isNumber_of_isIdentifier {text : String} (isName : isIdentifier text = true) :
    isNumber text = false := by
  unfold isIdentifier at isName
  unfold isNumber
  cases letters : text.toList with
  | nil => rfl
  | cons first rest =>
    rw [letters] at isName
    have starts : startsName first = true := (Bool.and_eq_true_iff.mp isName).1
    simp [Cypher.Parser.isDigit_of_startsName starts]

/-- A name is read as the column with that name. -/
theorem denotes_readKey_name {columns : List Column} {index : Nat} {column : Column} {name : String}
    (isColumn : columns[index]? = some column) (named : column.name = some name)
    (isName : isIdentifier name = true) (distinct : (columns.filterMap Column.name).Nodup) :
    (readKey columns name).Denotes columns index := by
  have there := any_name_iff.mpr ⟨column, List.mem_of_getElem? isColumn, named⟩
  unfold readKey
  rw [not_isNumber_of_isIdentifier isName, if_neg Bool.false_ne_true, if_pos there]
  have apart := List.pairwise_iff_getElem.mp (List.pairwise_filterMap.mp distinct)
  obtain ⟨inside, isHere⟩ := List.getElem?_eq_some_iff.mp isColumn
  rw [← isHere] at named
  intro other
  constructor
  · rintro ⟨found, isFound, hasName⟩
    obtain ⟨insideOther, rfl⟩ := List.getElem?_eq_some_iff.mp isFound
    rcases Nat.lt_trichotomy other index with before | same | behind
    · exact absurd rfl (apart other index insideOther inside before name hasName name named)
    · exact same
    · exact absurd rfl (apart index other inside insideOther behind name named name hasName)
  · rintro rfl
    exact ⟨_, List.getElem?_eq_getElem inside, named⟩

/-! ## Keys of a `SELECT` -/

/-- Each key denotes the column that it was made for. -/
def KeysDenote (columns : List Column) (grouping : List Nat) (keys : List Key) : Prop :=
  List.Forall₂ (fun index key => (readKey columns key.text).Denotes columns index) grouping keys

/-- Names of columns are names in SQL, and no two columns have the same one. -/
structure ProperNames (columns : List Column) : Prop where
  identifiers : ∀ column ∈ columns, ∀ name, column.name = some name → isIdentifier name = true
  distinct : (columns.filterMap Column.name).Nodup

/-- A key denotes the column that it was made for, unless that has no name and its expression
misleads. -/
theorem denotes_readKey_iff {columns : List Column} (names : ProperNames columns) {index : Nat}
    {column : Column} {key : Key} (isColumn : columns[index]? = some column)
    (isKey : keyOf column = .ok key) : (readKey columns key.text).Denotes columns index ↔
      (column.name = none → ¬Misleads columns index column.value.text) := by
  cases isName : column.name with
  | some name =>
    obtain rfl : .named name = key := by simpa [keyOf, isName] using isKey
    have proper := names.identifiers column (List.mem_of_getElem? isColumn) name isName
    exact iff_of_true (denotes_readKey_name isColumn isName proper names.distinct)
      fun none => absurd none (Option.some_ne_none _)
  | none =>
    cases isAggregate : column.aggregate with
    | some aggregate => simp [keyOf, isName, isAggregate] at isKey
    | none =>
      obtain rfl : .expression column.expression = key := by
        simpa [keyOf, isName, isAggregate] using isKey
      have isValue := value_of_keyOf isKey
      rw [Key.text, isValue, denotes_readKey_expression isColumn isName]
      exact ⟨fun denotes _ => denotes, fun denotes => denotes rfl⟩

theorem keysDenote_iff {columns : List Column} (names : ProperNames columns) {grouping : List Nat}
    {keys : List Key} (made : List.Forall₂
      (fun index key => ∃ column, columns[index]? = some column ∧ keyOf column = .ok key)
      grouping keys) :
    KeysDenote columns grouping keys ↔ ∀ index ∈ grouping, ∀ column,
      columns[index]? = some column → column.name = none →
        ¬Misleads columns index column.value.text := by
  unfold KeysDenote
  induction made with
  | nil => simp
  | @cons index key _ _ first _ ih =>
    obtain ⟨column, isColumn, isKey⟩ := first
    rw [List.forall₂_cons, ih, List.forall_mem_cons, denotes_readKey_iff names isColumn isKey]
    refine and_congr_left fun _ => ⟨fun denotes other isOther => ?_, fun denotes => ?_⟩
    · obtain rfl := Option.some.inj (isColumn.symm.trans isOther)
      exact denotes
    · exact denotes column isColumn

/-! ## Words -/

/-- Only words mislead. -/
theorem isWord_of_misleads {columns : List Column} {index : Nat} {text : String}
    (names : ∀ column ∈ columns, ∀ name, column.name = some name → isIdentifier name = true)
    (misleads : Misleads columns index text) : isWord text = true := by
  unfold Misleads at misleads
  split at misleads
  · next number => exact isWord_of_isNumber number
  · obtain ⟨column, isOne, named⟩ := misleads
    exact isWord_of_isIdentifier (names column isOne text named)

theorem isWord_of_mem {fragment : Fragment} (isText : isWord fragment.text = true)
    {lexeme : Lexeme} (isOne : lexeme ∈ fragment) : isWord lexeme.text = true := by
  rw [isWord, Fragment.toList_text, Fragment.letters, List.all_flatMap, List.all_eq_true] at isText
  exact isText lexeme isOne

theorem isWord_field (row : Alias) (path : List String) :
    isWord (Lexeme.field row path).text = false := by
  have point : isWord "." = false := by decide
  simp [Lexeme.text, isWord_append, point]

theorem isWord_existing (sub : Subselect) : isWord (Lexeme.existing sub).text = false := by
  have opening : isWord "EXISTS (" = false := by decide
  simp [Lexeme.text, isWord_append, opening]

end CypherSql.Sql
