import CypherSql.Proofs.Sql.Scanning
import CypherSql.Sql.Statement

/-! # Operands are read from their text

A sub-select is a row of tokens between parentheses, with rows of its own for its tables and for the
parts of its condition.  All other operands have no parentheses in them.

* `ScansClause` — a clause of a `SELECT` that may be left out.
* `tables_select`, `calls_select` — what a row with a `FROM` in it names and calls.
* `Subselect.IsPlain`, `Subselect.scans` — sub-selects that are read as they are meant.
* `Lexeme.IsPlain`, `Lexeme.Avoids` — operands with plain names and texts, and those that name no
  keyword of a `SELECT`.
* `Lexeme.isAtom` — what stands for an operand separates nothing and counts nothing.
-/

namespace CypherSql.Sql

open CypherSql.Cypher
open CypherSql.Text (isIdentifier)

/-! ## Clauses -/

/-- A clause stands on a line of its own behind its keyword, or is left out. -/
inductive ScansClause (keyword : String) (P : List Token → Prop) : String → List Token → Prop where
  | absent : ScansClause keyword P "" []
  | present {text : String} {row : List Token} (scans : Scans .start .finish text row)
      (holds : P row) :
      ScansClause keyword P ("\n" ++ keyword ++ " " ++ text) ([.word keyword] ++ row)

/-- A keyword at the start of a line. -/
theorem scans_line (keyword : String) (present : keyword ≠ "") (areLetters : isWord keyword = true) :
    Scans .finish .start ("\n" ++ keyword ++ " ") [.word keyword] :=
  (scans_newline.append (scans_word keyword present areLetters)).append scans_space

/-- Nothing follows, or the next clause does. -/
def EndsRow (row : List Token) : Prop :=
  ∀ token ∈ row.head?, token.endsList = true

section

variable {keyword text : String} {P : List Token → Prop} {row : List Token}

theorem ScansClause.scans (present : keyword ≠ "") (areLetters : isWord keyword = true)
    (clause : ScansClause keyword P text row) : Scans .finish .finish text row := by
  cases clause with
  | absent => exact scans_empty
  | present scans => exact (scans_line keyword present areLetters).append scans

/-- What is written as nothing leaves out its clause. -/
theorem exists_scansClause (keyword : String)
    (written : text = "" ∨ ∃ row, Scans .start .finish text row ∧ P row) :
    ∃ row, ScansClause keyword P (clauseText ("\n" ++ keyword ++ " ") text) row := by
  unfold clauseText
  split
  · exact ⟨[], .absent⟩
  · next present =>
    obtain ⟨row, scans, holds⟩ := written.resolve_left (by simpa using present)
    exact ⟨_, .present scans holds⟩

theorem ScansClause.apart (clause : ScansClause keyword P text row) :
    row.head?.any Token.isGroup = false := by
  cases clause <;> rfl

theorem ScansClause.readsOnly {known : List String}
    (closed : (Token.word keyword).opensTables = false)
    (each : ∀ row, P row → ReadsOnly known row) (clause : ScansClause keyword P text row) :
    ReadsOnly known row := by
  have word : ReadsOnly known [.word keyword] :=
    readsOnly_of_flat (List.forall_mem_singleton.mpr rfl) (List.forall_mem_singleton.mpr closed)
  cases clause with
  | absent => exact readsOnly_of_flat (List.forall_mem_nil _) (List.forall_mem_nil _)
  | present _ holds => exact word.append (each _ holds)

theorem ScansClause.uncalled {function : String}
    (other : (Token.word keyword).spells function = false)
    (each : ∀ row, P row → calls function row = false) (clause : ScansClause keyword P text row) :
    calls function row = false := by
  cases clause with
  | absent => rfl
  | present _ holds => exact (calls_cons rfl other).trans (each _ holds)

theorem ScansClause.endsRow (ends : (Token.word keyword).endsList = true)
    (clause : ScansClause keyword P text row) : EndsRow row := by
  cases clause with
  | absent => exact fun token isOne => absurd isOne (by simp)
  | present =>
    intro token isOne
    obtain rfl := Option.some.inj isOne
    exact ends

end

/-! ## Tables -/

/-- The tables of a `FROM` with the names of their rows. -/
def sourceTokens (sources : List (String × Alias)) : List Token :=
  [.mark ','].intercalate (sources.map fun source => [.word source.1, .word source.2.text])

def fromTokens (sources : List (String × Alias)) : List Token :=
  if sources.isEmpty then [] else [.word "FROM", .group (sourceTokens sources)]

theorem parts_intercalate {rows : List (List Token)} (present : rows ≠ [])
    (commaless : ∀ row ∈ rows, ∀ token ∈ row, token.isComma = false) :
    parts ([.mark ','].intercalate rows) = rows := by
  induction rows with
  | nil => contradiction
  | cons row rest ih =>
    obtain ⟨first, others⟩ := List.forall_mem_cons.mp commaless
    cases rest with
    | nil => simpa [List.intercalate, parts] using List.splitOnP_eq_singleton first
    | cons second rest =>
      have later := ih (List.cons_ne_nil _ _) others
      rw [List.intercalate_cons_cons, List.append_assoc, parts, List.singleton_append,
        List.splitOnP_append_cons_of_forall_mem first _ rfl]
      exact congrArg (row :: ·) later

section

variable {known : List String} {sources : List (String × Alias)} {head tail : List Token}

/-- Tables with plain names, each with a row of a slot. -/
structure ArePlain (known : List String) (sources : List (String × Alias)) : Prop where
  tables : ∀ source ∈ sources, source.1 ∈ known
  slots : ∀ source ∈ sources, source.2.isSlot = true

theorem scans_sources (areNames : ∀ table ∈ known, isIdentifier table = true)
    (plain : ArePlain known sources) :
    Scans .finish .finish
      (listText "\nFROM (" (sources.map fun source => source.1 ++ " " ++ source.2.text) ")")
      (fromTokens sources) := by
  unfold listText fromTokens
  rw [List.isEmpty_map]
  split
  · exact scans_empty
  · next present =>
    have each : List.Forall₂ (Scans .start .finish)
        (sources.map fun source => source.1 ++ " " ++ source.2.text)
        (sources.map fun source => [.word source.1, .word source.2.text]) := by
      rw [List.forall₂_map_left_iff, List.forall₂_map_right_iff, List.forall₂_same]
      intro source isSource
      have isName := areNames _ (plain.tables source isSource)
      exact ((scans_identifier isName).append scans_space).append
        (scans_alias (plain.slots source isSource))
    have members := scans_comma.intercalate (by simpa using present) each
    have text : "\nFROM (" = "\n" ++ "FROM" ++ " " ++ "(" := rfl
    have scans := ((scans_line "FROM" (by decide) (by decide)).append
      (scans_group members).anywhere).finish
    rw [text]
    simpa only [String.append_assoc, sourceTokens, List.singleton_append] using scans

/-- What holds of all words and of commas holds of the members of a `FROM`. -/
theorem forall_mem_sourceTokens {P : Token → Prop} (comma : P (.mark ','))
    (each : ∀ source ∈ sources, P (.word source.1) ∧ P (.word source.2.text)) :
    ∀ token ∈ sourceTokens sources, P token := by
  refine forall_mem_intercalate (List.forall_mem_singleton.mpr comma) ?_
  rw [List.forall_mem_map]
  intro source isSource
  obtain ⟨table, row⟩ := each source isSource
  exact List.forall_mem_cons.mpr ⟨table, List.forall_mem_singleton.mpr row⟩

theorem flat_sourceTokens : ∀ token ∈ sourceTokens sources, token.isGroup = false :=
  forall_mem_sourceTokens rfl fun _ _ => ⟨rfl, rfl⟩

/-- The members of a `FROM` are its tables, each with the name of its row. -/
theorem parts_sourceTokens (present : sources ≠ []) : parts (sourceTokens sources) =
    sources.map fun source => [.word source.1, .word source.2.text] := by
  refine parts_intercalate (by simpa using present) ?_
  rw [List.forall_mem_map]
  exact fun _ _ => List.forall_mem_cons.mpr ⟨rfl, List.forall_mem_singleton.mpr rfl⟩

/-- The tables of a `FROM` are those that its members begin with. -/
theorem filterMap_firstWord? (present : sources ≠ []) :
    (parts (sourceTokens sources)).filterMap firstWord? = sources.map Prod.fst := by
  rw [parts_sourceTokens present, List.filterMap_map]
  exact congrFun List.filterMap_eq_map' sources

/-- A row that reads from tables in parentheses names just these tables. -/
theorem rowTables_select (closed : ∀ token ∈ head, token.opensTables = false)
    (closedTail : ∀ token ∈ tail, token.opensTables = false) (ends : EndsRow tail) :
    rowTables (head ++ (fromTokens sources ++ tail)) = sources.map Prod.fst := by
  rw [rowTables_append closed]
  unfold fromTokens
  split
  · next empty =>
    rw [List.isEmpty_iff.mp empty]
    exact rowTables_eq_nil closedTail
  · next present =>
    have behind : tail.takeWhile (fun token => !token.isKeyword) = [] := by
      cases tail with
      | nil => rfl
      | cons token rest =>
        rw [List.takeWhile_cons_of_neg]
        simp [isKeyword_of_endsList (ends token rfl)]
    have opens : (Token.word "FROM").opensTables = true := by decide
    have others : rowTables (.group (sourceTokens sources) :: tail) = [] :=
      rowTables_eq_nil (List.forall_mem_cons.mpr ⟨rfl, closedTail⟩)
    have members : (Token.group (sourceTokens sources) :: tail).takeWhile
        (fun token => !token.isKeyword) = [.group (sourceTokens sources)] := by
      rw [List.takeWhile_cons_of_pos rfl, behind]
    have one : parts [.group (sourceTokens sources)] = [[.group (sourceTokens sources)]] := rfl
    rw [List.cons_append, List.singleton_append, rowTables, if_pos opens, others, members, one,
      List.append_nil, List.flatMap_singleton, memberTables,
      filterMap_firstWord? (by simpa using present)]

/-- Nothing else is read in it than in what stands around the tables. -/
theorem tables_select (readsOnly : ReadsOnly known head) (readsOnlyTail : ReadsOnly known tail)
    (ends : EndsRow tail) (plain : ArePlain known sources) :
    NamesOnly known (allRows (head ++ (fromTokens sources ++ tail))) := by
  intro unreserved
  rw [allRows, List.forall_mem_cons, rowTables_select readsOnly.closed readsOnlyTail.closed ends,
    rowsIn_append, rowsIn_append, List.forall_mem_append, List.forall_mem_append]
  refine ⟨by simpa using plain.tables, readsOnly.tables unreserved, ?_,
    readsOnlyTail.tables unreserved⟩
  have words : ∀ token ∈ sourceTokens sources, token.isKeyword = false :=
    forall_mem_sourceTokens (by decide) fun source isSource =>
      ⟨unreserved _ (plain.tables source isSource), isReserved_alias (plain.slots source isSource)⟩
  have members : rowTables (sourceTokens sources) = [] :=
    rowTables_eq_nil fun token isOne => opensTables_eq_false (words token isOne)
  unfold fromTokens
  split
  · simp [rowsIn]
  · simp [rowsIn, Token.rows, rowsIn_eq_nil flat_sourceTokens, members]

theorem calls_select (apart : tail.head?.any Token.isGroup = false) {function : String}
    (other : (Token.word "FROM").spells function = false) :
    calls function (head ++ (fromTokens sources ++ tail)) =
      (calls function head || calls function tail) := by
  unfold fromTokens
  split
  · exact calls_append apart
  · rw [calls_append (by rfl), calls_append apart, calls_called, other,
      calls_of_flat flat_sourceTokens, Bool.or_self, Bool.false_or]

end

/-! ## Sub-selects -/

theorem keptByLogic_quiet (known : List String) : Condition.KeptByLogic (Quiet known) where
  joined keyword isOne left right ofLeft ofRight := by
    have word : Quiet known [.word keyword] := by
      refine quiet_of_flat (List.forall_mem_singleton.mpr rfl) (List.forall_mem_singleton.mpr ?_)
      rcases List.mem_pair.mp isOne with rfl | rfl <;> decide
    exact ofLeft.append (word.append ofRight)
  group row quiet := quiet_group quiet.readsOnly.allRows

theorem keptByLogic_uncalled :
    Condition.KeptByLogic fun row => calls "COUNT" row = false where
  joined keyword isOne left right ofLeft ofRight := by
    have other : (Token.word keyword).spells "COUNT" = false := by
      rcases List.mem_pair.mp isOne with rfl | rfl <;> decide
    rw [calls_append rfl, List.singleton_append, calls_cons rfl other, ofLeft, ofRight]
    rfl
  group row uncalled := (calls_group row).trans uncalled

theorem Test.simple_tokens (test : Test) : ∀ token ∈ test.tokens, token.isSimple = true := by
  have equals : ∀ token ∈ [Token.mark '='], token.isSimple = true :=
    List.forall_mem_singleton.mpr rfl
  cases test with
  | hasType =>
    exact List.forall_mem_append.mpr ⟨List.forall_mem_append.mpr ⟨simple_fieldTokens, equals⟩,
      List.forall_mem_singleton.mpr rfl⟩
  | sameId | runsFrom | runsTo =>
    exact List.forall_mem_append.mpr ⟨List.forall_mem_append.mpr ⟨simple_fieldTokens, equals⟩,
      simple_fieldTokens⟩

theorem Test.quiet {known : List String} {test : Test} (plain : test.IsPlain) :
    Quiet known test.tokens := by
  have equals : ∀ token ∈ [Token.mark '='], token.isKeyword = false :=
    List.forall_mem_singleton.mpr (by decide)
  have column : ∀ {row : Alias} {name : String}, row.isSlot = true → isReserved name = false →
      ∀ token ∈ fieldTokens row [name], token.isKeyword = false :=
    fun isSlot unreserved => quiet_fieldTokens isSlot (List.forall_mem_singleton.mpr unreserved)
  refine quiet_of_flat (fun token isOne => Token.isGroup_of_isSimple (test.simple_tokens token isOne)) ?_
  cases test with
  | hasType =>
    exact List.forall_mem_append.mpr ⟨List.forall_mem_append.mpr ⟨column plain.1 (by decide), equals⟩,
      List.forall_mem_singleton.mpr rfl⟩
  | sameId | runsFrom | runsTo =>
    exact List.forall_mem_append.mpr ⟨List.forall_mem_append.mpr ⟨column plain.1 (by decide), equals⟩,
      column plain.2 (by decide)⟩

/-- Tables with plain names, and tests between slots for labels without quotes. -/
structure Subselect.IsPlain (known : List String) (sub : Subselect) : Prop where
  sources : ArePlain known sub.sources
  tests : ∀ test ∈ sub.condition.leaves, test.IsPlain

theorem scans_selectOne : Scans .start .finish "SELECT 1" [.word "SELECT", .word "1"] :=
  ((scans_word "SELECT" (by decide) (by decide)).append scans_space).append
    (scans_word "1" (by decide) (by decide))

theorem scans_exists : Scans .start .start "EXISTS " [.word "EXISTS"] :=
  (scans_word "EXISTS" (by decide) (by decide)).append scans_space

/-- A sub-select calls nothing, and it names known tables only. -/
structure Subselect.Reads (known : List String) (row : List Token) : Prop where
  uncalled : calls "COUNT" row = false
  tables : NamesOnly known (allRows row)

section

variable {known : List String} (areNames : ∀ table ∈ known, isIdentifier table = true)

include areNames

theorem Subselect.scans {sub : Subselect} (plain : sub.IsPlain known) :
    ∃ row, Scans .start .finish sub.text row ∧ Subselect.Reads known row := by
  have kept := (keptByLogic_quiet known).and keptByLogic_uncalled
  have condition := Condition.scans kept sub.condition fun test isTest => by
    have flat : ∀ token ∈ test.tokens, token.isGroup = false :=
      fun token isOne => Token.isGroup_of_isSimple (test.simple_tokens token isOne)
    exact ⟨test.tokens, Test.scans (plain.tests test isTest), Test.quiet (plain.tests test isTest),
      calls_of_flat flat⟩
  obtain ⟨tail, clause⟩ := exists_scansClause "WHERE" condition
  have scansTail := clause.scans (by decide) (by decide)
  have readsOnly : ReadsOnly known [.word "SELECT", .word "1"] :=
    readsOnly_of_flat (by decide) (by decide)
  have readsOnlyTail := clause.readsOnly (by decide) fun row holds => holds.1.readsOnly
  have uncalled := clause.uncalled (by decide) fun row holds => holds.2
  refine ⟨_, (scans_selectOne.append (scans_sources areNames plain.sources)).append scansTail, ?_, ?_⟩
  · rw [List.append_assoc, calls_select clause.apart (by decide), uncalled]
    decide
  · rw [List.append_assoc]
    exact tables_select readsOnly readsOnlyTail (clause.endsRow (by decide)) plain.sources

end

/-! ## Operands -/

namespace Lexeme

/-- Rows of slots with plain columns, plain names, texts without quotes and plain sub-selects. -/
def IsPlain (known : List String) : Lexeme → Prop
  | field row path =>
    row.isSlot = true ∧ path ≠ [] ∧ ∀ name ∈ path, isIdentifier name = true
  | word name => isIdentifier name = true
  | literal value => ∀ text, value = .string text → '\'' ∉ text.toList
  | existing sub => sub.IsPlain known
  | given _ => False
  | _ => True

/-- No name is a keyword of a `SELECT`. -/
def Avoids : Lexeme → Prop
  | field _ path => ∀ name ∈ path, isReserved name = false
  | word name => isReserved name = false
  | _ => True

/-- What the text of a lexeme is read as. -/
def tokens (lexeme : Lexeme) : List Token :=
  (scan lexeme.text).getD []

/-- The text of an operand is read as a row that separates nothing and counts nothing. -/
structure IsAtom (known : List String) (lexeme : Lexeme) : Prop where
  scans : Scans .start .finish lexeme.text lexeme.tokens
  present : lexeme.tokens ≠ []
  commaless : ∀ token ∈ lexeme.tokens, token.isComma = false
  uncalled : calls "COUNT" lexeme.tokens = false
  quiet : lexeme.Avoids → Quiet known lexeme.tokens

variable {known : List String} {lexeme : Lexeme} {row : List Token}

theorem tokens_eq (scans : Scans .start .finish lexeme.text row) : lexeme.tokens = row := by
  rw [tokens, scans.scan_eq]
  rfl

theorem isAtom_of_simple (simply : ScansSimply lexeme.text row)
    (words : lexeme.Avoids → ∀ token ∈ row, token.isKeyword = false) : lexeme.IsAtom known := by
  have flat : ∀ token ∈ row, token.isGroup = false :=
    fun token isOne => Token.isGroup_of_isSimple (simply.simple token isOne)
  obtain rfl := tokens_eq simply.scans
  exact ⟨simply.scans, simply.present,
    fun token isOne => Token.isComma_of_isSimple (simply.simple token isOne), calls_of_flat flat,
    fun avoids => quiet_of_flat flat (words avoids)⟩

theorem isAtom (areNames : ∀ table ∈ known, isIdentifier table = true)
    (plain : lexeme.IsPlain known) (stands : lexeme.isOperand = true) : lexeme.IsAtom known := by
  cases lexeme with
  | field row path =>
    obtain ⟨isSlot, present, names⟩ := plain
    exact isAtom_of_simple ⟨scans_field isSlot present names, List.cons_ne_nil _ _, simple_fieldTokens⟩
      fun avoids => quiet_fieldTokens isSlot avoids
  | word name =>
    exact isAtom_of_simple (scansSimply_word (scans_identifier plain))
      fun avoids => List.forall_mem_singleton.mpr avoids
  | literal value =>
    obtain ⟨row, simply, words⟩ := scans_literal plain
    exact isAtom_of_simple simply fun _ => words
  | star =>
    have scans : Scans .start .finish "*" [.mark '*'] :=
      (scans_mark "*" rfl (by decide)).anywhere.loosen
    exact isAtom_of_simple ⟨scans, List.cons_ne_nil _ _, List.forall_mem_singleton.mpr rfl⟩
      fun _ => List.forall_mem_singleton.mpr (by decide)
  | existing sub =>
    obtain ⟨row, scans, reads⟩ := Subselect.scans areNames plain
    have whole : Scans .start .finish (Lexeme.existing sub).text [.word "EXISTS", .group row] := by
      have scans := (scans_exists.append (scans_group scans).anywhere).finish
      have text : "EXISTS (" = "EXISTS " ++ "(" := rfl
      rw [Lexeme.text, text]
      simpa only [String.append_assoc, List.append_nil, List.singleton_append] using scans
    obtain isRow := tokens_eq whole
    constructor
    case scans => exact isRow.symm ▸ whole
    case present => simp [isRow]
    case commaless => simp [isRow, Token.isComma]
    case uncalled =>
      rw [isRow, calls_called, reads.uncalled]
      decide
    case quiet =>
      intro _
      have word : Quiet known [.word "EXISTS"] := quiet_of_flat (by decide) (by decide)
      exact isRow ▸ word.append (quiet_group reads.tables)
  | given => contradiction
  | compare | add | multiply | like | negate | not | and | or | function | distinct | comma
  | opening | closing => contradiction

end Lexeme

end CypherSql.Sql
