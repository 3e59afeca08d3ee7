import CypherSql.Proofs.Sql.Tokens

/-! # What SQL finds in a row of tokens

The tokens of a statement tell which `SELECT`s it consists of, what each of them lists, which tables
are read anywhere in it and which functions are called.

* `allRows` — a row of tokens and all rows between parentheses in it.
* `listed` — what a `SELECT` lists.
* `tablesIn` — the tables that `FROM` and `JOIN` name.
* `calls` — a function is called.
* `branchRows`, `outerRows` — the `SELECT`s whose rows are put together, and those around them.
* `isReserved` — names that are keywords of a `SELECT`.
* `ReadsOnly`, `Quiet` — a row names no tables, and no keyword of a `SELECT` stands in it.
* `Quiet.append`, `calls_append` — rows that are put together.
-/

namespace CypherSql.Sql

open CypherSql.Text (sameIgnoringCase)

/-! ## Rows between parentheses -/

mutual

def Token.rows : Token → List (List Token)
  | .group inner => inner :: rowsIn inner
  | _ => []

/-- All rows between parentheses, at any depth. -/
def rowsIn : List Token → List (List Token)
  | [] => []
  | token :: rest => token.rows ++ rowsIn rest

end

def allRows (row : List Token) : List (List Token) :=
  row :: rowsIn row

/-! ## Keywords -/

def keywords : List String :=
  ["SELECT", "DISTINCT", "FROM", "JOIN", "WHERE", "GROUP", "UNION", "LIMIT", "OFFSET", "AS"]

def isReserved (name : String) : Bool :=
  keywords.any (sameIgnoringCase name)

namespace Token

def isKeyword (token : Token) : Bool :=
  keywords.any token.spells

/-- What follows names a table. -/
def opensTables (token : Token) : Bool :=
  token.spells "FROM" || token.spells "JOIN"

/-- Here a list of columns is over. -/
def endsList (token : Token) : Bool :=
  ["FROM", "WHERE", "GROUP", "UNION", "LIMIT", "OFFSET"].any token.spells

end Token

/-! ## Lists -/

/-- The rows between commas. -/
def parts (row : List Token) : List (List Token) :=
  row.splitOnP Token.isComma

def dropDistinct : List Token → List Token
  | token :: rest => if token.spells "DISTINCT" then rest else token :: rest
  | [] => []

/-- What a `SELECT` lists. -/
def listed : List Token → List (List Token)
  | token :: rest =>
    if token.spells "SELECT" then
      parts ((dropDistinct rest).takeWhile fun token => !token.endsList)
    else []
  | [] => []

/-- What an item of a list is, without the name behind it. -/
def itemValue (item : List Token) : List Token :=
  item.takeWhile fun token => !token.spells "AS"

/-- The name behind an item. -/
def itemName? (item : List Token) : Option String :=
  match item.dropWhile fun token => !token.spells "AS" with
  | _ :: .word name :: _ => some name
  | _ => none

/-! ## Tables -/

def firstWord? : List Token → Option String
  | .word name :: _ => some name
  | _ => none

/-- The tables of a member of `FROM`, which may be a list in parentheses. -/
def memberTables : List Token → List String
  | .word name :: _ => [name]
  | .group inner :: _ => (parts inner).filterMap firstWord?
  | _ => []

/-- The tables that are named in a row, rows between other parentheses apart. -/
def rowTables : List Token → List String
  | [] => []
  | token :: rest =>
    (if token.opensTables then
      (parts (rest.takeWhile fun token => !token.isKeyword)).flatMap memberTables
    else []) ++ rowTables rest

/-- All tables that are named behind a `FROM` or a `JOIN`. -/
def tablesIn (row : List Token) : List String :=
  (allRows row).flatMap rowTables

/-! ## Calls -/

def rowCalls (function : String) : List Token → Bool
  | [] => false
  | token :: rest =>
    (token.spells function && rest.head?.any Token.isGroup) || rowCalls function rest

/-- A function is called: its name stands in front of parentheses. -/
def calls (function : String) (row : List Token) : Bool :=
  (allRows row).any (rowCalls function)

/-! ## `SELECT`s -/

def dropAll : List Token → List Token
  | token :: rest => if token.spells "ALL" then rest else token :: rest
  | [] => []

/-- A member of a union may stand in parentheses, with more behind them. -/
def unwrapped : List Token → List Token
  | .group inner :: _ => inner
  | row => row

/-- What stands between `UNION`s, or the whole row. -/
def memberRows (row : List Token) : List (List Token) :=
  (row.splitOnP (Token.spells "UNION")).map fun member => unwrapped (dropAll member)

/-- A row begins as a query does, and not as a list of tables. -/
def isQuery : List Token → Bool
  | token :: _ => token.spells "SELECT" || token.isGroup
  | [] => false

/-- The members of the query in the parentheses behind `FROM`. -/
def derivedRows (row : List Token) : List (List Token) :=
  match row.dropWhile fun token => !token.spells "FROM" with
  | _ :: .group inner :: _ => if isQuery inner then memberRows inner else []
  | _ => []

/-- The `SELECT`s whose rows a statement puts together: its own, or those in their `FROM`. -/
def branchRows (row : List Token) : List (List Token) :=
  (memberRows row).flatMap fun select =>
    if derivedRows select = [] then [select] else derivedRows select

/-- The `SELECT`s that have others in their `FROM`. -/
def outerRows (row : List Token) : List (List Token) :=
  (memberRows row).filter fun select => !(derivedRows select).isEmpty

/-- All `SELECT`s of a statement, apart from those that its expressions test. -/
def selects (row : List Token) : List (List Token) :=
  outerRows row ++ branchRows row

/-! ## Rows that are put together -/

section

variable {row first second : List Token} {known : List String}

theorem rowsIn_append (first second : List Token) :
    rowsIn (first ++ second) = rowsIn first ++ rowsIn second := by
  induction first with
  | nil => simp [rowsIn]
  | cons token rest ih => simp [rowsIn, ih]

theorem rowsIn_cons (token : Token) (rest : List Token) :
    rowsIn (token :: rest) = token.rows ++ rowsIn rest := by
  rw [rowsIn]

theorem rows_eq_nil {token : Token} (single : token.isGroup = false) : token.rows = [] := by
  cases token with
  | group => contradiction
  | word | quoted | mark => rw [Token.rows]; simp

theorem rowsIn_eq_nil (flat : ∀ token ∈ row, token.isGroup = false) : rowsIn row = [] := by
  induction row with
  | nil => rw [rowsIn]
  | cons token rest ih =>
    obtain ⟨single, flat⟩ := List.forall_mem_cons.mp flat
    rw [rowsIn_cons, rows_eq_nil single, ih flat, List.append_nil]

theorem rowTables_eq_nil (closed : ∀ token ∈ row, token.opensTables = false) :
    rowTables row = [] := by
  induction row with
  | nil => rfl
  | cons token rest ih =>
    obtain ⟨other, closed⟩ := List.forall_mem_cons.mp closed
    rw [rowTables, other, if_neg Bool.false_ne_true, ih closed, List.append_nil]

theorem rowTables_append (closed : ∀ token ∈ first, token.opensTables = false) :
    rowTables (first ++ second) = rowTables second := by
  induction first with
  | nil => rfl
  | cons token rest ih =>
    obtain ⟨other, closed⟩ := List.forall_mem_cons.mp closed
    rw [List.cons_append, rowTables, other, if_neg Bool.false_ne_true, ih closed, List.nil_append]

/-- All words that end a list are keywords. -/
theorem isKeyword_of_endsList {token : Token} (ends : token.endsList = true) :
    token.isKeyword = true := by
  have known : ["FROM", "WHERE", "GROUP", "UNION", "LIMIT", "OFFSET"] ⊆ keywords := by decide
  obtain ⟨keyword, isOne, spells⟩ := List.any_eq_true.mp ends
  exact List.any_eq_true.mpr ⟨keyword, known isOne, spells⟩

theorem isKeyword_word (name : String) : (Token.word name).isKeyword = isReserved name :=
  rfl

theorem opensTables_eq_false {token : Token} (other : token.isKeyword = false) :
    token.opensTables = false := by
  simp only [Token.isKeyword, keywords, List.any_cons, Bool.or_eq_false_iff] at other
  simp [Token.opensTables, other]

/-- Only known tables are named in these rows, provided that none of those is a keyword. -/
def NamesOnly (known : List String) (rows : List (List Token)) : Prop :=
  (∀ table ∈ known, isReserved table = false) → ∀ row ∈ rows, ∀ table ∈ rowTables row, table ∈ known

theorem namesOnly_nil (known : List String) : NamesOnly known [] :=
  fun _ => List.forall_mem_nil _

theorem NamesOnly.append {rows others : List (List Token)} (left : NamesOnly known rows)
    (right : NamesOnly known others) : NamesOnly known (rows ++ others) :=
  fun unreserved => List.forall_mem_append.mpr ⟨left unreserved, right unreserved⟩

/-- A row names no tables itself, and what stands between parentheses in it names known ones only. -/
structure ReadsOnly (known : List String) (row : List Token) : Prop where
  closed : ∀ token ∈ row, token.opensTables = false
  tables : NamesOnly known (rowsIn row)

theorem ReadsOnly.append (left : ReadsOnly known first) (right : ReadsOnly known second) :
    ReadsOnly known (first ++ second) where
  closed := List.forall_mem_append.mpr ⟨left.closed, right.closed⟩
  tables := by
    rw [rowsIn_append]
    exact left.tables.append right.tables

/-- Tokens without parentheses. -/
theorem readsOnly_of_flat (flat : ∀ token ∈ row, token.isGroup = false)
    (closed : ∀ token ∈ row, token.opensTables = false) : ReadsOnly known row where
  closed := closed
  tables := by
    rw [rowsIn_eq_nil flat]
    exact namesOnly_nil known

theorem rowsIn_group (row : List Token) : rowsIn [.group row] = allRows row := by
  simp [rowsIn, Token.rows, allRows]

/-- All tables of a row between parentheses are known. -/
theorem readsOnly_group (inside : NamesOnly known (allRows row)) : ReadsOnly known [.group row] where
  closed := List.forall_mem_singleton.mpr rfl
  tables := by
    rwa [rowsIn_group]

theorem ReadsOnly.allRows (readsOnly : ReadsOnly known row) : NamesOnly known (allRows row) := by
  refine fun unreserved => List.forall_mem_cons.mpr ⟨?_, readsOnly.tables unreserved⟩
  rw [rowTables_eq_nil readsOnly.closed]
  exact List.forall_mem_nil _

/-- No keyword of a `SELECT` stands in a row, and what stands between parentheses reads known tables
only. -/
structure Quiet (known : List String) (row : List Token) : Prop where
  words : ∀ token ∈ row, token.isKeyword = false
  readsOnly : ReadsOnly known row

theorem Quiet.append (left : Quiet known first) (right : Quiet known second) :
    Quiet known (first ++ second) where
  words := List.forall_mem_append.mpr ⟨left.words, right.words⟩
  readsOnly := left.readsOnly.append right.readsOnly

theorem quiet_of_flat (flat : ∀ token ∈ row, token.isGroup = false)
    (words : ∀ token ∈ row, token.isKeyword = false) : Quiet known row :=
  ⟨words, readsOnly_of_flat flat fun token isOne => opensTables_eq_false (words token isOne)⟩

theorem quiet_group (inside : NamesOnly known (allRows row)) : Quiet known [.group row] :=
  ⟨List.forall_mem_singleton.mpr rfl, readsOnly_group inside⟩

theorem NamesOnly.tablesIn (only : NamesOnly known (allRows row))
    (unreserved : ∀ table ∈ known, isReserved table = false) : ∀ table ∈ tablesIn row, table ∈ known :=
  List.forall_mem_flatMap.mpr (only unreserved)

theorem memberRows_of_select (undivided : ∀ token ∈ row, token.spells "UNION" = false) :
    memberRows (.word "SELECT" :: row) = [.word "SELECT" :: row] := by
  have whole : (Token.word "SELECT" :: row).splitOnP (Token.spells "UNION") =
      [.word "SELECT" :: row] :=
    List.splitOnP_eq_singleton (List.forall_mem_cons.mpr ⟨by decide, undivided⟩)
  rw [memberRows, whole]
  rfl

/-! ## Calls in rows that are put together -/

variable {function : String}

theorem rowCalls_append (apart : second.head?.any Token.isGroup = false) :
    rowCalls function (first ++ second) = (rowCalls function first || rowCalls function second) := by
  induction first with
  | nil => rfl
  | cons token rest ih =>
    cases rest with
    | nil => simp [rowCalls, apart]
    | cons next rest =>
      rw [List.cons_append, rowCalls, ih, rowCalls.eq_def function (token :: next :: rest)]
      exact (Bool.or_assoc _ _ _).symm

theorem calls_eq (row : List Token) :
    calls function row = (rowCalls function row || (rowsIn row).any (rowCalls function)) :=
  rfl

theorem calls_append (apart : second.head?.any Token.isGroup = false) :
    calls function (first ++ second) = (calls function first || calls function second) := by
  rw [calls_eq, rowCalls_append apart, rowsIn_append, List.any_append, calls_eq, calls_eq]
  grind

theorem calls_of_flat (flat : ∀ token ∈ row, token.isGroup = false) : calls function row = false := by
  rw [calls_eq, rowsIn_eq_nil flat, List.any_nil, Bool.or_false]
  induction row with
  | nil => rfl
  | cons token rest ih =>
    obtain ⟨-, flat⟩ := List.forall_mem_cons.mp flat
    rw [rowCalls, ih flat]
    cases rest with
    | nil => simp
    | cons next rest => simp [flat next List.mem_cons_self]

theorem calls_cons {token : Token} (single : token.isGroup = false)
    (other : token.spells function = false) :
    calls function (token :: row) = calls function row := by
  rw [calls_eq, rowCalls, other, Bool.false_and, Bool.false_or, rowsIn_cons, rows_eq_nil single,
    List.nil_append, calls_eq]

theorem calls_append_of_forall (flat : ∀ token ∈ first, token.isGroup = false)
    (other : ∀ token ∈ first, token.spells function = false) :
    calls function (first ++ second) = calls function second := by
  induction first with
  | nil => rfl
  | cons token rest ih =>
    obtain ⟨single, flat⟩ := List.forall_mem_cons.mp flat
    obtain ⟨isOther, other⟩ := List.forall_mem_cons.mp other
    rw [List.cons_append, calls_cons single isOther, ih flat other]

theorem calls_group (row : List Token) : calls function [.group row] = calls function row := by
  simp [calls_eq, rowCalls, rowsIn, Token.rows, Token.spells]

theorem calls_called (name : String) (row : List Token) :
    calls function [.word name, .group row] =
      ((Token.word name).spells function || calls function row) := by
  simp [calls_eq, rowCalls, rowsIn, Token.rows, Token.isGroup, Token.spells]

end

end CypherSql.Sql
