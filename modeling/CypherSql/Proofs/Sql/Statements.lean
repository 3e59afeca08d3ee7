import CypherSql.Proofs.Sql.Listings

/-! # Statements are read from their text

A statement is a `SELECT`, or several in parentheses with `UNION` between them, or one that reads the
rows of those.

* `unionRow` — `SELECT`s that are put together.
* `Merged.tokens`, `outerTokens` — the query that aggregates the rows of others once more.
* `Statement.IsClear` — plain names and texts in all parts of a statement.
* `Statement.Reads`, `Statement.scans` — the `SELECT`s and the tables that are found in its text.
-/

namespace CypherSql.Sql

open CypherSql.Text (isIdentifier)

/-! ## Pages -/

/-- A number behind a keyword, if one is given. -/
theorem scans_count (known : List String) (keyword : String) (present : keyword ≠ "")
    (areLetters : isWord keyword = true) (ends : (Token.word keyword).endsList = true)
    (closed : (Token.word keyword).opensTables = false)
    (divided : (Token.word keyword).spells "UNION" = false) (limit : Option Nat) :
    ∃ row, Scans .finish .finish (match limit with
        | some count => "\n" ++ keyword ++ " " ++ toString count
        | none => "") row ∧ IsTail known row := by
  cases limit with
  | none => exact ⟨[], scans_empty, isTail_nil known⟩
  | some count =>
    have number := isNumber_toString count
    have quiet : Quiet known [.word (toString count)] :=
      quiet_of_flat (List.forall_mem_singleton.mpr rfl)
        (List.forall_mem_singleton.mpr (isReserved_of_isNumber number))
    have clause : ScansClause keyword (Quiet known) _ _ := .present (scans_number number) quiet
    exact ⟨_, clause.scans present areLetters,
      clause.isTail ends closed divided⟩

theorem scans_page (known : List String) (page : Page) :
    ∃ row, Scans .finish .finish page.text row ∧ IsTail known row := by
  obtain ⟨limit, scansLimit, isLimit⟩ := scans_count known "LIMIT"
    (by decide) (by decide) (by decide) (by decide) (by decide) page.limit
  obtain ⟨offset, scansOffset, isOffset⟩ := scans_count known "OFFSET"
    (by decide) (by decide) (by decide) (by decide) (by decide) page.offset
  exact ⟨limit ++ offset, scansLimit.append scansOffset, isLimit.append isOffset⟩

/-! ## Unions -/

def unionTokens (distinct : Bool) : List Token :=
  if distinct then [.word "UNION"] else [.word "UNION", .word "ALL"]

/-- `SELECT`s in parentheses, with what puts their rows together between them. -/
def unionRow (distinct : Bool) (rows : List (List Token)) : List Token :=
  (unionTokens distinct).intercalate (rows.map fun row => [.group row])

theorem branchTexts_eq (branches : List (Branch Statement)) :
    branchTexts branches = branches.map fun branch => "(" ++ branchText branch ++ ")" := by
  induction branches with
  | nil => rw [branchTexts, List.map_nil]
  | cons branch rest ih => rw [branchTexts, ih, List.map_cons]

section

variable {known : List String} {branches : List (Branch Statement)} {rows : List (List Token)}
  (distinct : Bool)

theorem scans_union : Scans .finish .start (unionText distinct) (unionTokens distinct) := by
  have union : Scans .finish .finish "\nUNION" [.word "UNION"] :=
    scans_newline.append (scans_word "UNION" (by decide) (by decide))
  have all : Scans .finish .finish " ALL" [.word "ALL"] :=
    scans_space.append (scans_word "ALL" (by decide) (by decide))
  cases distinct with
  | true => exact union.append scans_newline
  | false => exact (union.append all).append scans_newline

theorem memberRows_union (row rest : List Token) :
    memberRows (.group row :: .word "UNION" :: rest) = row :: memberRows rest := by
  have first : ∀ token ∈ [Token.group row], token.spells "UNION" = false :=
    List.forall_mem_singleton.mpr rfl
  have split : (Token.group row :: .word "UNION" :: rest).splitOnP (Token.spells "UNION") =
      [.group row] :: rest.splitOnP (Token.spells "UNION") :=
    List.splitOnP_append_cons_of_forall_mem first (.word "UNION") (by decide) rest
  rw [memberRows, split, List.map_cons]
  rfl

/-- `ALL` belongs to the `UNION` in front of it. -/
theorem memberRows_all (inner rest : List Token) :
    memberRows (.word "ALL" :: .group inner :: rest) = memberRows (.group inner :: rest) := by
  have all : (Token.word "ALL").spells "UNION" = false := by decide
  have group : (Token.group inner).spells "UNION" = false := rfl
  obtain ⟨first, others, isSplit⟩ := List.exists_cons_of_ne_nil
    (List.splitOnP_ne_nil (Token.spells "UNION") rest)
  simp only [memberRows, List.splitOnP_cons_eq_if_modifyHead, all, group, isSplit]
  rfl

theorem memberRows_unionTokens (row inner rest : List Token) :
    memberRows (.group row :: (unionTokens distinct ++ .group inner :: rest)) =
      row :: memberRows (.group inner :: rest) := by
  cases distinct with
  | true => exact memberRows_union row _
  | false => exact (memberRows_union row _).trans (congrArg (row :: ·) (memberRows_all inner rest))

theorem unionRow_cons (row second : List Token) (rest : List (List Token)) :
    unionRow distinct (row :: second :: rest) =
      [.group row] ++ unionTokens distinct ++ unionRow distinct (second :: rest) :=
  List.intercalate_cons_cons

theorem unionRow_eq (present : rows ≠ []) : ∃ row rest, unionRow distinct rows = .group row :: rest := by
  obtain ⟨row, rest, rfl⟩ := List.exists_cons_of_ne_nil present
  cases rest with
  | nil => exact ⟨row, [], by simp [unionRow, List.intercalate]⟩
  | cons second rest => exact ⟨row, _, unionRow_cons distinct row second rest⟩

/-- The members of a union are those that it was made from. -/
theorem memberRows_unionRow {tail : List Token} (present : rows ≠ [])
    (undivided : ∀ token ∈ tail, token.spells "UNION" = false) :
    memberRows (unionRow distinct rows ++ tail) = rows := by
  induction rows with
  | nil => contradiction
  | cons row rest ih =>
    cases rest with
    | nil =>
      have whole : (Token.group row :: tail).splitOnP (Token.spells "UNION") = [.group row :: tail] :=
        List.splitOnP_eq_singleton (List.forall_mem_cons.mpr ⟨rfl, undivided⟩)
      have one : unionRow distinct [row] = [.group row] := by simp [unionRow, List.intercalate]
      rw [one, List.singleton_append, memberRows, whole]
      rfl
    | cons second rest =>
      have later := ih (List.cons_ne_nil _ _)
      obtain ⟨inner, others, begins⟩ := unionRow_eq distinct (List.cons_ne_nil second rest)
      rw [unionRow_cons, begins, List.append_assoc, List.append_assoc, List.singleton_append,
        List.cons_append, memberRows_unionTokens, ← List.cons_append, ← begins, later]

theorem readsOnly_unionRow
    (each : ∀ row ∈ rows, NamesOnly known (allRows row)) :
    ReadsOnly known (unionRow distinct rows) := by
  have union : ReadsOnly known (unionTokens distinct) := by
    cases distinct <;> exact readsOnly_of_flat (by decide) (by decide)
  exact union.intercalate (List.forall_mem_map.mpr fun row isRow => readsOnly_group (each row isRow))

/-- The branches of a union. -/
theorem scans_branches (areNames : ∀ table ∈ known, isIdentifier table = true)
    (unreserved : ∀ table ∈ known, isReserved table = false) (present : branches ≠ [])
    (clear : ∀ branch ∈ branches, branch.IsClear known) :
    ∃ rows, List.Forall₂ (Branch.Reads known) branches rows ∧ rows ≠ [] ∧
      (∀ row ∈ rows, derivedRows row = [] ∧ NamesOnly known (allRows row)) ∧
      Scans .start .finish ((unionText distinct).intercalate (branchTexts branches))
        (unionRow distinct rows) := by
  obtain ⟨rows, related, each⟩ := exists_forall₂
    (R := fun branch row => Scans .start .finish (branchText branch) row ∧ branch.Reads known row)
    (P := fun row => derivedRows row = [] ∧ NamesOnly known (allRows row))
    fun branch isBranch => by
      obtain ⟨row, scans, reads⟩ :=
        Branch.scans areNames unreserved (clear branch isBranch) scans_empty (isTail_nil known)
      rw [String.append_empty] at scans
      exact ⟨row, ⟨scans, reads⟩, reads.single, reads.tables⟩
  refine ⟨rows, related.imp fun _ _ found => found.2, ?_, each, ?_⟩
  · rintro rfl
    cases related
    contradiction
  · rw [branchTexts_eq]
    refine (scans_union distinct).intercalate (by simpa using present) ?_
    rw [List.forall₂_map_left_iff, List.forall₂_map_right_iff]
    exact related.imp fun _ _ found => (scans_group found.1).anywhere.loosen

end

/-! ## Columns of the outer query -/

def Merged.tokens : Merged → List Token
  | key name => [.word name]
  | sum name => [.word "SUM", .group [.word name]]
  | reapplied function name => [.word function, .group [.word name]]

def Merged.IsClear : Merged → Prop
  | key name | sum name => IsName name
  | reapplied function name => IsName function ∧ IsName name

theorem quiet_name (known : List String) {name : String} (isName : IsName name) :
    Quiet known [.word name] :=
  quiet_of_flat (List.forall_mem_singleton.mpr rfl) (List.forall_mem_singleton.mpr isName.isKeyword)

theorem readsValue_called (known : List String) {function name : String} (isFunction : IsName function)
    (isName : IsName name) :
    ReadsValue known (function ++ "(" ++ name ++ ")") [.word function, .group [.word name]] where
  scans := by
    have scans := isFunction.scans.append ((scans_group isName.scans).finish)
    simpa only [String.append_assoc, List.singleton_append] using scans
  present := List.cons_ne_nil _ _
  commaless := List.forall_mem_cons.mpr ⟨rfl, List.forall_mem_singleton.mpr rfl⟩
  quiet := (quiet_name known isFunction).append
    (quiet_group (quiet_name known isName).readsOnly.allRows)

theorem Merged.readsValue (known : List String) {column : Merged} (clear : column.IsClear) :
    ReadsValue known column.text column.tokens := by
  cases column with
  | key name => exact ⟨clear.scans, List.cons_ne_nil _ _, List.forall_mem_singleton.mpr rfl,
      quiet_name known clear⟩
  | sum name =>
    have isFunction : IsName "SUM" := ⟨by decide, by decide⟩
    exact readsValue_called known isFunction clear
  | reapplied function name => exact readsValue_called known clear.1 clear.2

/-! ## Statements -/

def Statement.IsClear (known : List String) : Statement → Prop
  | single branch _ => branch.IsClear known
  | union _ branches _ => branches ≠ [] ∧ ∀ branch ∈ branches, branch.IsClear known
  | merged columns _ branches keys _ =>
    (branches ≠ [] ∧ ∀ branch ∈ branches, branch.IsClear known) ∧
      columns ≠ [] ∧ (∀ column ∈ columns, column.IsClear) ∧ ∀ key ∈ keys, IsName key

/-- The columns of the outer query, if there is one. -/
def Statement.outer? : Statement → Option (List Merged)
  | merged columns _ _ _ _ => some columns
  | single _ _ | union _ _ _ => none

/-- What a statement is read as: the `SELECT`s that it puts together, and the one around them. -/
structure Statement.Reads (known : List String) (statement : Statement) (row : List Token) : Prop where
  branches : List.Forall₂ (Branch.Reads known) statement.branches (branchRows row)
  outer : List.Forall₂ (fun columns outer => listed outer = columns.map Merged.tokens)
    statement.outer?.toList (outerRows row)
  tables : NamesOnly known (allRows row)

/-- A row is put together from these `SELECT`s, and none of them reads the rows of others. -/
theorem branchRows_of_members {row : List Token} {rows : List (List Token)}
    (members : memberRows row = rows) (single : ∀ select ∈ rows, derivedRows select = []) :
    branchRows row = rows ∧ outerRows row = [] := by
  rw [branchRows, outerRows, members]
  constructor
  · refine Eq.trans (List.flatMap_congr fun select isSelect => ?_) (List.flatMap_singleton' rows)
    exact if_pos (single select isSelect)
  · exact List.filter_eq_nil_iff.mpr fun select isSelect => by simp [single select isSelect]

section

variable {known : List String} (areNames : ∀ table ∈ known, isIdentifier table = true)

theorem scans_outerKeys (known : List String) {keys : List String}
    (areNames : ∀ key ∈ keys, IsName key) :
    ∃ row, Scans .finish .finish (listText "\nGROUP BY " (keys.map fun key => "x." ++ key) "") row ∧
      IsTail known row := by
  refine scans_grouping (List.forall_mem_map.mpr fun key isKey => ?_)
  have isName := areNames key isKey
  have row : Scans .start .start "x." [.word "x", .mark '.'] :=
    (scans_word "x" (by decide) (by decide)).append scans_point
  have quiet : Quiet known [.word "x", .mark '.'] := quiet_of_flat (by decide) (by decide)
  exact ⟨_, row.append isName.scans, quiet.append (quiet_name known isName)⟩

/-! ### The outer query -/

/-- The row of a query that aggregates the rows of others once more. -/
def outerTokens (columns : List Merged) (distinct : Bool) (rows : List (List Token))
    (tail : List Token) : List Token :=
  selectTokens false (columns.map Merged.tokens) ++
    ([.word "FROM", .group (unionRow distinct rows)] ++ ([.word "AS", .word "x"] ++ tail))

section

variable {columns : List Merged} {rows : List (List Token)} {tail : List Token} (distinct : Bool)

theorem readsOnly_outer (known : List String) (clear : ∀ column ∈ columns, column.IsClear) :
    ReadsOnly known (selectTokens false (columns.map Merged.tokens)) :=
  readsOnly_select false (List.forall_mem_map.mpr fun column isOne =>
    (Merged.readsValue known (clear column isOne)).quiet.readsOnly)

theorem derivedRows_outer (present : rows ≠ []) (clear : ∀ column ∈ columns, column.IsClear) :
    derivedRows (outerTokens columns distinct rows tail) = rows := by
  have closed := (readsOnly_outer [] clear).closed
  have query : isQuery (unionRow distinct rows) = true := by
    obtain ⟨row, rest, begins⟩ := unionRow_eq distinct present
    rw [begins]
    rfl
  have members : memberRows (unionRow distinct rows) = rows := by
    simpa using memberRows_unionRow distinct present (List.forall_mem_nil _)
  rw [derivedRows, outerTokens, List.dropWhile_append_of_pos (fromless closed), List.cons_append,
    List.dropWhile_cons_of_neg (by decide)]
  exact (if_pos query).trans members

theorem memberRows_outer (clear : ∀ column ∈ columns, column.IsClear)
    (undivided : ∀ token ∈ tail, token.spells "UNION" = false) :
    memberRows (outerTokens columns distinct rows tail) = [outerTokens columns distinct rows tail] := by
  have items : ∀ item ∈ columns.map Merged.tokens, IsItem item :=
    List.forall_mem_map.mpr fun column isOne => (Merged.readsValue [] (clear column isOne)).isItem
  refine memberRows_of_select (List.forall_mem_append.mpr ⟨undivided_select false items,
    List.forall_mem_append.mpr ⟨?_, List.forall_mem_append.mpr ⟨by decide, undivided⟩⟩⟩)
  exact List.forall_mem_cons.mpr ⟨by decide, List.forall_mem_singleton.mpr rfl⟩

theorem listed_outer (present : columns ≠ []) (clear : ∀ column ∈ columns, column.IsClear) :
    listed (outerTokens columns distinct rows tail) = columns.map Merged.tokens := by
  refine listed_select false (by simpa using present) (List.forall_mem_map.mpr fun column isOne =>
    (Merged.readsValue [] (clear column isOne)).isItem) ?_
  rw [List.cons_append, List.takeWhile_cons_of_neg (by decide)]

/-- The outer query reads from no table itself. -/
theorem rowTables_outer (present : rows ≠ []) (clear : ∀ column ∈ columns, column.IsClear)
    (closedTail : ∀ token ∈ tail, token.opensTables = false) :
    rowTables (outerTokens columns distinct rows tail) = [] := by
  have commaless : ∀ token ∈ unionRow distinct rows, token.isComma = false := by
    refine forall_mem_intercalate ?_
      (List.forall_mem_map.mpr fun row _ => List.forall_mem_singleton.mpr rfl)
    cases distinct <;> decide
  have one : parts (unionRow distinct rows) = [unionRow distinct rows] :=
    List.splitOnP_eq_singleton commaless
  have unnamed : firstWord? (unionRow distinct rows) = none := by
    obtain ⟨row, rest, begins⟩ := unionRow_eq distinct present
    rw [begins]
    rfl
  have opens : (Token.word "FROM").opensTables = true := by decide
  have members : (Token.group (unionRow distinct rows) :: .word "AS" :: .word "x" :: tail).takeWhile
      (fun token => !token.isKeyword) = [.group (unionRow distinct rows)] := by
    rw [List.takeWhile_cons_of_pos rfl, List.takeWhile_cons_of_neg (by decide)]
  have single : parts [.group (unionRow distinct rows)] = [[.group (unionRow distinct rows)]] := rfl
  have closed : ∀ token ∈ Token.group (unionRow distinct rows) :: .word "AS" :: .word "x" :: tail,
      token.opensTables = false :=
    List.forall_mem_cons.mpr ⟨rfl, List.forall_mem_cons.mpr ⟨by decide,
      List.forall_mem_cons.mpr ⟨by decide, closedTail⟩⟩⟩
  rw [outerTokens, rowTables_append (readsOnly_outer [] clear).closed]
  simp only [List.cons_append, List.nil_append]
  rw [rowTables, if_pos opens, rowTables_eq_nil closed, members, single, List.append_nil,
    List.flatMap_singleton, memberTables, one, List.filterMap_cons_none unnamed, List.filterMap_nil]

theorem tables_outer {known : List String} (present : rows ≠ [])
    (clear : ∀ column ∈ columns, column.IsClear)
    (tables : ∀ row ∈ rows, NamesOnly known (allRows row)) (readsTail : ReadsOnly known tail) :
    NamesOnly known (allRows (outerTokens columns distinct rows tail)) := by
  intro unreserved
  have union : rowsIn [.word "FROM", .group (unionRow distinct rows)] =
      allRows (unionRow distinct rows) := by
    simp [rowsIn, Token.rows, allRows]
  have name : ReadsOnly known [.word "AS", .word "x"] := readsOnly_of_flat (by decide) (by decide)
  rw [allRows, List.forall_mem_cons, rowTables_outer distinct present clear readsTail.closed, outerTokens,
    rowsIn_append, rowsIn_append, union]
  exact ⟨List.forall_mem_nil _, ((readsOnly_outer known clear).tables.append
    ((readsOnly_unionRow distinct tables).allRows.append (name.append readsTail).tables)) unreserved⟩

end

include areNames

/-- A statement with plain names and texts is read as it is meant. -/
theorem Statement.scans (unreserved : ∀ table ∈ known, isReserved table = false)
    {statement : Statement} (clear : statement.IsClear known) :
    ∃ row, Scans .start .finish statement.text row ∧ statement.Reads known row := by
  cases statement with
  | single branch page =>
    obtain ⟨rest, scansRest, isRest⟩ := scans_page known page
    obtain ⟨row, scans, reads⟩ := Branch.scans areNames unreserved clear scansRest isRest
    obtain ⟨branches, outer⟩ := branchRows_of_members reads.undivided
      (List.forall_mem_singleton.mpr reads.single)
    refine ⟨row, by rwa [Statement.text], ?_, ?_, reads.tables⟩
    · rw [branches]
      exact .cons reads .nil
    · rw [outer]
      exact .nil
  | union distinct branches page =>
    obtain ⟨rest, scansRest, isRest⟩ := scans_page known page
    obtain ⟨rows, reads, present, each, scans⟩ :=
      scans_branches distinct areNames unreserved clear.1 clear.2
    obtain ⟨members, outer⟩ := branchRows_of_members
      (memberRows_unionRow distinct present isRest.undivided) fun row isRow => (each row isRow).1
    have tables := readsOnly_unionRow distinct fun row isRow => (each row isRow).2
    refine ⟨unionRow distinct rows ++ rest, ?_, ?_, ?_, ?_⟩
    · rw [Statement.text]
      exact scans.append scansRest
    · rwa [members]
    · rw [outer]
      exact .nil
    · exact (tables.append isRest.readsOnly).allRows
  | merged columns distinct branches keys page =>
    obtain ⟨⟨some, clearBranches⟩, someColumns, clearColumns, clearKeys⟩ := clear
    obtain ⟨rest, scansRest, isRest⟩ := scans_page known page
    obtain ⟨groups, scansGroups, isGroups⟩ := scans_outerKeys known clearKeys
    obtain ⟨rows, reads, present, each, scans⟩ :=
      scans_branches distinct areNames unreserved some clearBranches
    have values : List.Forall₂ (Scans .start .finish) (columns.map Merged.text)
        (columns.map Merged.tokens) := by
      rw [List.forall₂_map_left_iff, List.forall₂_map_right_iff, List.forall₂_same]
      exact fun column isOne => (Merged.readsValue known (clearColumns column isOne)).scans
    have head := scans_select false (by simpa using someColumns) values
    have opened : Scans .finish .start "\nFROM\n" [.word "FROM"] :=
      (scans_newline.append (scans_word "FROM" (by decide) (by decide))).append scans_newline
    have named : Scans .finish .finish " AS x" [.word "AS", .word "x"] :=
      (scans_spaced "AS" (by decide) (by decide)).append (scans_word "x" (by decide) (by decide))
    have derived : derivedRows (outerTokens columns distinct rows (groups ++ rest)) = rows :=
      derivedRows_outer distinct present clearColumns
    have members : memberRows (outerTokens columns distinct rows (groups ++ rest)) =
        [outerTokens columns distinct rows (groups ++ rest)] :=
      memberRows_outer distinct clearColumns (isGroups.append isRest).undivided
    refine ⟨outerTokens columns distinct rows (groups ++ rest), ?_, ?_, ?_, ?_⟩
    · have inside := (opened.append (scans_group scans).anywhere).finish
      have whole := head.append (inside.append (named.append (scansGroups.append scansRest)))
      have opening : "\nFROM\n(" = "\nFROM\n" ++ "(" := rfl
      have closing : ") AS x" = ")" ++ " AS x" := rfl
      have unmarked : (if false = true then "DISTINCT " else "") = "" := rfl
      rw [Statement.text, opening, closing]
      rw [unmarked, String.append_empty] at whole
      simp only [String.append_assoc] at whole ⊢
      exact whole
    · rw [branchRows, members, List.flatMap_singleton, derived, if_neg present]
      exact reads
    · have isOuter : outerRows (outerTokens columns distinct rows (groups ++ rest)) =
          [outerTokens columns distinct rows (groups ++ rest)] := by
        rw [outerRows, members]
        exact List.filter_eq_self.mpr (List.forall_mem_singleton.mpr (by simp [derived, present]))
      rw [isOuter]
      exact .cons (listed_outer distinct someColumns clearColumns) .nil
    · exact tables_outer distinct present clearColumns (fun row isRow => (each row isRow).2)
        (isGroups.append isRest).readsOnly

end

end CypherSql.Sql
