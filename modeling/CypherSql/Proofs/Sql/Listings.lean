import CypherSql.Proofs.Compilation.Columns
import CypherSql.Proofs.Sql.Wording

/-! # A `SELECT` is read from its text

With plain names and texts, and no name that is a keyword of a `SELECT`, what a `SELECT` lists is what
its columns are written as, and it names the tables that it reads from.

* `IsClear`, `Column.IsClear`, `Branch.IsClear` — what is read as it is meant.
* `Column.Reads`, `Column.scans` — the value of a column and the name behind it.
* `listed_select` — what is listed is what was put between commas.
* `ScansClause.isTail` — the clauses behind the tables.
* `Branch.Reads`, `Branch.scans` — the columns and the tables of a `SELECT`.
-/

namespace CypherSql.Sql

open CypherSql.Text (isIdentifier)

/-! ## What is clear -/

/-- A single expression of plain operands that name no keyword of a `SELECT`. -/
structure IsClear (known : List String) (fragment : Fragment) : Prop where
  phrase : ∃ phrase : Phrase, phrase.fragment = fragment
  plain : ∀ lexeme ∈ fragment, lexeme.IsPlain known
  avoids : ∀ lexeme ∈ fragment, lexeme.Avoids

/-- A name that SQL reads as a name. -/
structure IsName (name : String) : Prop where
  identifier : isIdentifier name = true
  unreserved : isReserved name = false

structure Column.IsClear (known : List String) (column : Column) : Prop where
  value : Sql.IsClear known column.value
  name : ∀ name ∈ column.name, IsName name

def Leaf.IsClear (known : List String) : Leaf → Prop
  | shape test => test.IsPlain
  | predicate fragment => (∀ lexeme ∈ fragment, lexeme.IsPlain known ∧ lexeme.Avoids) ∧
      ∃ phrases : List Phrase, phrases ≠ [] ∧ fragment = .joined .comma (phrases.map Phrase.fragment)
  | never => True

def Key.IsClear (known : List String) : Key → Prop
  | named name => IsName name
  | expression fragment => Sql.IsClear known fragment

structure Branch.IsClear (known : List String) (branch : Branch Statement) : Prop where
  present : branch.columns ≠ []
  columns : ∀ column ∈ branch.columns, column.IsClear known
  sources : ∃ sources, branch.sources = sources.map (fun source => .table source.1 (some source.2)) ∧
    ArePlain known sources
  joins : branch.joins = []
  leaves : ∀ leaf ∈ branch.condition.leaves, leaf.IsClear known
  keys : ∀ key ∈ branch.keys, key.IsClear known

/-! ## Items -/

/-- A row that is one item of a list. -/
structure IsItem (item : List Token) : Prop where
  begins : ∃ token rest, item = token :: rest ∧ token.spells "DISTINCT" = false
  commaless : ∀ token ∈ item, token.isComma = false
  goesOn : ∀ token ∈ item, token.endsList = false

section

variable {known : List String} {fragment : Fragment} {row : List Token}
  (areNames : ∀ table ∈ known, isIdentifier table = true)

/-- What an expression is read as. -/
structure ReadsValue (known : List String) (text : String) (row : List Token) : Prop where
  scans : Scans .start .finish text row
  present : row ≠ []
  commaless : ∀ token ∈ row, token.isComma = false
  quiet : Quiet known row

include areNames in
theorem Phrase.readsValue {phrase : Phrase} (plain : ∀ lexeme ∈ phrase.fragment, lexeme.IsPlain known)
    (avoids : ∀ lexeme ∈ phrase.fragment, lexeme.Avoids) :
    ReadsValue known phrase.fragment.text phrase.tokens := by
  have atoms : phrase.HasAtoms known :=
    fun lexeme isOne stands => Lexeme.isAtom areNames (plain lexeme isOne) stands
  exact ⟨phrase.scans atoms, phrase.present atoms, phrase.commaless atoms,
    phrase.quiet atoms avoids⟩

include areNames in
theorem IsClear.readsValue (clear : IsClear known fragment) :
    ∃ row, ReadsValue known fragment.text row := by
  obtain ⟨phrase, rfl⟩ := clear.phrase
  exact ⟨phrase.tokens, phrase.readsValue areNames clear.plain clear.avoids⟩

end

/-- What a column with this value and this name is read as. -/
structure Column.Reads (known : List String) (column : Column) (item : List Token) : Prop where
  value : Scans .start .finish column.value.text (itemValue item)
  present : itemValue item ≠ []
  name : itemName? item = column.name
  isItem : IsItem item
  readsOnly : ReadsOnly known item

theorem spells_eq_false {token : Token} (other : token.isKeyword = false) {keyword : String}
    (isOne : keyword ∈ keywords) : token.spells keyword = false :=
  Bool.eq_false_iff.mpr (List.any_eq_false.mp other keyword isOne)

theorem endsList_eq_false {token : Token} (other : token.isKeyword = false) :
    token.endsList = false := by
  by_contra ends
  exact Bool.eq_false_iff.mp other (isKeyword_of_endsList (Bool.not_eq_false _ ▸ ends))

section

variable {known : List String} {text name : String} {row : List Token}

theorem ReadsValue.isItem (reads : ReadsValue known text row) : IsItem row where
  begins := by
    obtain ⟨token, rest, rfl⟩ := List.exists_cons_of_ne_nil reads.present
    exact ⟨token, rest, rfl, spells_eq_false (reads.quiet.words _ List.mem_cons_self) (by decide)⟩
  commaless := reads.commaless
  goesOn token isOne := endsList_eq_false (reads.quiet.words token isOne)

theorem IsItem.append (isItem : IsItem row) {more : List Token}
    (commaless : ∀ token ∈ more, token.isComma = false)
    (goesOn : ∀ token ∈ more, token.endsList = false) : IsItem (row ++ more) where
  begins := by
    obtain ⟨token, rest, rfl, other⟩ := isItem.begins
    exact ⟨token, rest ++ more, rfl, other⟩
  commaless := List.forall_mem_append.mpr ⟨isItem.commaless, commaless⟩
  goesOn := List.forall_mem_append.mpr ⟨isItem.goesOn, goesOn⟩

section

variable (quiet : Quiet known row)

include quiet

theorem unnamed : ∀ token ∈ row, (!token.spells "AS") = true := by
  intro token isOne
  rw [spells_eq_false (quiet.words token isOne) (by decide), Bool.not_false]

theorem itemValue_eq : itemValue row = row :=
  List.takeWhile_eq_self_iff.mpr (unnamed quiet)

theorem itemName?_eq : itemName? row = none := by
  rw [itemName?, List.dropWhile_eq_nil_iff.mpr (unnamed quiet)]

/-- A keyword of its own stands between a value and its name. -/
theorem itemValue_named : itemValue (row ++ [.word "AS", .word name]) = row := by
  rw [itemValue, List.takeWhile_append_of_pos (unnamed quiet), List.takeWhile_cons_of_neg (by decide),
    List.append_nil]

theorem itemName?_named : itemName? (row ++ [.word "AS", .word name]) = some name := by
  rw [itemName?, List.dropWhile_append_of_pos (unnamed quiet), List.dropWhile_cons_of_neg (by decide)]

end

theorem IsName.scans (isName : IsName name) : Scans .start .finish name [.word name] :=
  scans_identifier isName.identifier

theorem IsName.isKeyword (isName : IsName name) : (Token.word name).isKeyword = false :=
  isName.unreserved

end

section

variable {known : List String} (areNames : ∀ table ∈ known, isIdentifier table = true)

include areNames

theorem Column.scans {column : Column} (clear : column.IsClear known) :
    ∃ item, Scans .start .finish column.text item ∧ column.Reads known item := by
  obtain ⟨row, reads⟩ := clear.value.readsValue areNames
  rw [Column.text_eq]
  cases isName : column.name with
  | none =>
    refine ⟨row, reads.scans, ?_, ?_, ?_, reads.isItem, reads.quiet.readsOnly⟩
    · exact (itemValue_eq reads.quiet).symm ▸ reads.scans
    · exact (itemValue_eq reads.quiet).symm ▸ reads.present
    · exact (itemName?_eq reads.quiet).trans isName.symm
  | some name =>
    have word := clear.name name isName
    have separates : Scans .finish .start " AS " [.word "AS"] :=
      scans_spaced "AS" (by decide) (by decide)
    have behind : ∀ token ∈ [Token.word "AS", .word name],
        token.isComma = false ∧ token.endsList = false ∧ token.opensTables = false := by
      have other := endsList_eq_false word.isKeyword
      have closed := opensTables_eq_false word.isKeyword
      exact List.forall_mem_cons.mpr ⟨by decide, List.forall_mem_singleton.mpr ⟨rfl, other, closed⟩⟩
    have named : ReadsOnly known [.word "AS", .word name] :=
      readsOnly_of_flat (by simp [Token.isGroup]) fun token isOne => (behind token isOne).2.2
    refine ⟨row ++ [.word "AS", .word name], ?_, ?_, ?_, ?_, ?_, reads.quiet.readsOnly.append named⟩
    · simpa using (reads.scans.append separates).append word.scans
    · exact (itemValue_named reads.quiet).symm ▸ reads.scans
    · exact (itemValue_named reads.quiet).symm ▸ reads.present
    · exact (itemName?_named reads.quiet).trans isName.symm
    · exact reads.isItem.append (fun token isOne => (behind token isOne).1)
        fun token isOne => (behind token isOne).2.1

end

/-! ## Lists -/

/-- The beginning of a `SELECT`, up to the end of its list. -/
def selectTokens (distinct : Bool) (items : List (List Token)) : List Token :=
  .word "SELECT" :: ((if distinct then [.word "DISTINCT"] else []) ++ [.mark ','].intercalate items)

section

variable {known : List String} {items : List (List Token)} {tail : List Token} (distinct : Bool)

theorem scans_select (present : items ≠ []) {texts : List String}
    (each : List.Forall₂ (Scans .start .finish) texts items) :
    Scans .start .finish ("SELECT " ++ (if distinct then "DISTINCT " else "") ++ ", ".intercalate texts)
      (selectTokens distinct items) := by
  have word : Scans .start .start "SELECT " [.word "SELECT"] :=
    (scans_word "SELECT" (by decide) (by decide)).append scans_space
  have marked : Scans .start .start (if distinct then "DISTINCT " else "")
      (if distinct then [.word "DISTINCT"] else []) := by
    cases distinct
    · exact scans_empty
    · exact (scans_word "DISTINCT" (by decide) (by decide)).append scans_space
  have some : texts ≠ [] := by
    rintro rfl
    cases each
    contradiction
  rw [String.append_assoc]
  exact word.append (marked.append (scans_comma.intercalate some each))

/-- What is listed is what was put between commas. -/
theorem listed_select (present : items ≠ []) (each : ∀ item ∈ items, IsItem item)
    (stops : tail.takeWhile (fun token => !token.endsList) = []) :
    listed (selectTokens distinct items ++ tail) = items := by
  have list : dropDistinct ((if distinct then [.word "DISTINCT"] else []) ++
      ([.mark ','].intercalate items ++ tail)) = [.mark ','].intercalate items ++ tail := by
    cases distinct with
    | true => rfl
    | false =>
      obtain ⟨item, rest, rfl⟩ := List.exists_cons_of_ne_nil present
      obtain ⟨token, others, rfl, other⟩ := (each item List.mem_cons_self).begins
      have first : ∃ others', [Token.mark ','].intercalate ((token :: others) :: rest) =
          token :: others' := by
        cases rest with
        | nil => exact ⟨others, by simp [List.intercalate]⟩
        | cons second rest => exact ⟨_, by rw [List.intercalate_cons_cons, List.cons_append,
            List.cons_append]⟩
      obtain ⟨others', begins⟩ := first
      rw [begins, if_neg Bool.false_ne_true, List.nil_append, List.cons_append, dropDistinct, other,
        if_neg Bool.false_ne_true]
  have goesOn : ∀ token ∈ [Token.mark ','].intercalate items, (!token.endsList) = true :=
    forall_mem_intercalate (List.forall_mem_singleton.mpr (by decide)) fun item isItem token isOne => by
      rw [(each item isItem).goesOn token isOne, Bool.not_false]
  have spelled : (Token.word "SELECT").spells "SELECT" = true := by decide
  rw [selectTokens, List.cons_append, listed, if_pos spelled, List.append_assoc, list,
    List.takeWhile_append_of_pos goesOn, stops, List.append_nil,
    parts_intercalate present fun item isItem => (each item isItem).commaless]

theorem ReadsOnly.intercalate {separator : List Token} (between : ReadsOnly known separator)
    (each : ∀ item ∈ items, ReadsOnly known item) :
    ReadsOnly known (separator.intercalate items) := by
  induction items with
  | nil => exact readsOnly_of_flat (List.forall_mem_nil _) (List.forall_mem_nil _)
  | cons item rest ih =>
    obtain ⟨first, others⟩ := List.forall_mem_cons.mp each
    cases rest with
    | nil => simpa [List.intercalate] using first
    | cons second rest =>
      rw [List.intercalate_cons_cons]
      exact (first.append between).append (ih others)

/-- No `UNION` stands in front of the tables of a `SELECT`. -/
theorem undivided_select (each : ∀ item ∈ items, IsItem item) :
    ∀ token ∈ (if distinct then [.word "DISTINCT"] else []) ++ [Token.mark ','].intercalate items,
      token.spells "UNION" = false := by
  refine List.forall_mem_append.mpr ⟨?_, forall_mem_intercalate
    (List.forall_mem_singleton.mpr (by decide)) fun item isItem token isOne => ?_⟩
  · cases distinct <;> decide
  · exact Bool.eq_false_iff.mpr
      (List.any_eq_false.mp ((each item isItem).goesOn token isOne) "UNION" (by decide))

theorem readsOnly_select (each : ∀ item ∈ items, ReadsOnly known item) :
    ReadsOnly known (selectTokens distinct items) := by
  have word : ReadsOnly known [.word "SELECT"] := readsOnly_of_flat (by decide) (by decide)
  have marked : ReadsOnly known (if distinct then [.word "DISTINCT"] else []) := by
    cases distinct <;> exact readsOnly_of_flat (by decide) (by decide)
  have comma : ReadsOnly known [.mark ','] := readsOnly_of_flat (by decide) (by decide)
  exact word.append (marked.append (comma.intercalate each))

end

/-! ## Clauses -/

/-- Clauses behind the tables of a `SELECT`. -/
structure IsTail (known : List String) (row : List Token) : Prop where
  ends : EndsRow row
  undivided : ∀ token ∈ row, token.spells "UNION" = false
  readsOnly : ReadsOnly known row

theorem isTail_nil (known : List String) : IsTail known [] where
  ends token isOne := absurd isOne (by simp)
  undivided := List.forall_mem_nil _
  readsOnly := readsOnly_of_flat (List.forall_mem_nil _) (List.forall_mem_nil _)

theorem IsTail.append {known : List String} {first second : List Token} (isFirst : IsTail known first)
    (isSecond : IsTail known second) : IsTail known (first ++ second) where
  ends := by
    cases first with
    | nil => exact isSecond.ends
    | cons => exact isFirst.ends
  undivided := List.forall_mem_append.mpr ⟨isFirst.undivided, isSecond.undivided⟩
  readsOnly := isFirst.readsOnly.append isSecond.readsOnly

theorem ScansClause.isTail {known : List String} {keyword text : String} {row : List Token}
    (ends : (Token.word keyword).endsList = true) (closed : (Token.word keyword).opensTables = false)
    (divided : (Token.word keyword).spells "UNION" = false)
    (clause : ScansClause keyword (Quiet known) text row) : IsTail known row where
  ends := clause.endsRow ends
  undivided := by
    cases clause with
    | absent => exact List.forall_mem_nil _
    | present _ quiet =>
      exact List.forall_mem_cons.mpr ⟨divided, fun token isOne =>
        spells_eq_false (quiet.words token isOne) (by decide)⟩
  readsOnly := clause.readsOnly closed fun _ quiet => quiet.readsOnly

theorem EndsRow.takeWhile_eq {row : List Token} (ends : EndsRow row) :
    row.takeWhile (fun token => !token.endsList) = [] := by
  cases row with
  | nil => rfl
  | cons token rest =>
    rw [List.takeWhile_cons_of_neg]
    simp [ends token rfl]

/-! ## Branches -/

theorem Fragment.text_joined (separator : Lexeme) (parts : List Fragment) :
    (Fragment.joined separator parts).text = separator.text.intercalate (parts.map Fragment.text) := by
  induction parts with
  | nil => rfl
  | cons first rest ih =>
    cases rest with
    | nil => simp [Fragment.joined, List.intercalate]
    | cons second rest =>
      rw [Fragment.joined, List.intercalate_cons_cons, Fragment.text_append, Fragment.text_append,
        Fragment.text_singleton, List.map_cons, List.map_cons, String.intercalate_cons_cons]
      exact congrArg (first.text ++ separator.text ++ ·) ih

theorem mem_joined {separator lexeme : Lexeme} {parts : List Fragment} {part : Fragment}
    (isPart : part ∈ parts) (isOne : lexeme ∈ part) : lexeme ∈ Fragment.joined separator parts := by
  obtain ⟨first, rest, rfl⟩ := List.exists_cons_of_ne_nil (List.ne_nil_of_mem isPart)
  rw [Fragment.joined_cons, List.mem_append, List.mem_flatMap]
  rcases List.mem_cons.mp isPart with rfl | isLater
  · exact .inl isOne
  · exact .inr ⟨part, isLater, List.mem_cons_of_mem _ isOne⟩

theorem keysText_eq {texts : List String} (present : texts ≠ []) :
    listText "\nGROUP BY " texts "" = "\n" ++ "GROUP" ++ " " ++ ("BY " ++ ", ".intercalate texts) := by
  have opening : "\nGROUP BY " = "\n" ++ "GROUP" ++ " " ++ "BY " := rfl
  rw [listText, if_neg (by simpa using present), opening, String.append_empty]
  simp only [String.append_assoc]

section

variable {known : List String} (areNames : ∀ table ∈ known, isIdentifier table = true)

theorem Quiet.intercalate {separator : List Token} {rows : List (List Token)}
    (between : Quiet known separator) (each : ∀ row ∈ rows, Quiet known row) :
    Quiet known (separator.intercalate rows) :=
  ⟨forall_mem_intercalate between.words fun row isRow => (each row isRow).words,
    between.readsOnly.intercalate fun row isRow => (each row isRow).readsOnly⟩

/-- What is found for each member is found for a list. -/
theorem exists_forall₂ {α β : Type} {R : α → β → Prop} {P : β → Prop} {xs : List α}
    (each : ∀ x ∈ xs, ∃ y, R x y ∧ P y) : ∃ ys, List.Forall₂ R xs ys ∧ ∀ y ∈ ys, P y := by
  induction xs with
  | nil => exact ⟨[], .nil, List.forall_mem_nil _⟩
  | cons x rest ih =>
    obtain ⟨⟨y, related, holds⟩, others⟩ := List.forall_mem_cons.mp each
    obtain ⟨ys, relatedAll, holdAll⟩ := ih others
    exact ⟨y :: ys, .cons related relatedAll, List.forall_mem_cons.mpr ⟨holds, holdAll⟩⟩

/-- Texts with commas between them. -/
theorem scans_texts {texts : List String} (present : texts ≠ [])
    (each : ∀ text ∈ texts, ∃ row, Scans .start .finish text row ∧ Quiet known row) :
    ∃ row, Scans .start .finish (", ".intercalate texts) row ∧ Quiet known row := by
  obtain ⟨rows, scan, quiet⟩ := exists_forall₂ each
  have comma : Quiet known [.mark ','] := quiet_of_flat (by decide) (by decide)
  exact ⟨_, scans_comma.intercalate present scan, comma.intercalate quiet⟩

/-- What rows are grouped by, if they are. -/
theorem scans_grouping {texts : List String}
    (each : ∀ text ∈ texts, ∃ row, Scans .start .finish text row ∧ Quiet known row) :
    ∃ row, Scans .finish .finish (listText "\nGROUP BY " texts "") row ∧ IsTail known row := by
  by_cases none : texts = []
  · rw [none]
    exact ⟨[], scans_empty, isTail_nil known⟩
  · obtain ⟨row, scans, quiet⟩ := scans_texts none each
    have word : Scans .start .start "BY " [.word "BY"] :=
      (scans_word "BY" (by decide) (by decide)).append scans_space
    have members : Scans .start .finish ("BY " ++ ", ".intercalate texts) ([.word "BY"] ++ row) :=
      word.append scans
    have clause : ScansClause "GROUP" (Quiet known) _ _ :=
      .present members ((quiet_of_flat (by decide) (by decide)).append quiet)
    rw [keysText_eq none]
    exact ⟨_, clause.scans (by decide) (by decide),
      clause.isTail (by decide) (by decide) (by decide)⟩

include areNames

theorem Leaf.scans {leaf : Leaf} (clear : leaf.IsClear known) :
    ∃ row, Scans .start .finish leaf.text row ∧ Quiet known row := by
  cases leaf with
  | shape test => exact ⟨test.tokens, Test.scans clear, Test.quiet clear⟩
  | predicate fragment =>
    obtain ⟨lexemes, phrases, present, rfl⟩ := clear
    rw [Leaf.text, Fragment.text_joined]
    refine scans_texts (by simpa using present) ?_
    rw [List.map_map, List.forall_mem_map]
    intro phrase isOne
    have inside : ∀ lexeme ∈ phrase.fragment, lexeme.IsPlain known ∧ lexeme.Avoids :=
      fun lexeme isLexeme => lexemes lexeme
        (mem_joined (List.mem_map_of_mem isOne) isLexeme)
    have reads := phrase.readsValue areNames (fun lexeme isLexeme => (inside lexeme isLexeme).1)
      fun lexeme isLexeme => (inside lexeme isLexeme).2
    exact ⟨phrase.tokens, reads.scans, reads.quiet⟩
  | never =>
    exact ⟨[.word "FALSE"], scans_word _ (by decide) (by decide), quiet_of_flat (by decide) (by decide)⟩

theorem Key.scans {key : Key} (clear : key.IsClear known) :
    ∃ row, Scans .start .finish key.text row ∧ Quiet known row := by
  cases key with
  | named name =>
    exact ⟨[.word name], IsName.scans clear, quiet_of_flat (List.forall_mem_singleton.mpr rfl)
      (List.forall_mem_singleton.mpr clear.isKeyword)⟩
  | expression fragment =>
    obtain ⟨row, reads⟩ := IsClear.readsValue areNames clear
    exact ⟨row, reads.scans, reads.quiet⟩

theorem scans_columns {columns : List Column} (clear : ∀ column ∈ columns, column.IsClear known) :
    ∃ items, List.Forall₂ (fun column item => Scans .start .finish (Column.text column) item ∧
      column.Reads known item) columns items ∧ ∀ item ∈ items, IsItem item ∧ ReadsOnly known item := by
  refine exists_forall₂ fun column isOne => ?_
  obtain ⟨item, scans, reads⟩ := Column.scans areNames (clear column isOne)
  exact ⟨item, ⟨scans, reads⟩, reads.isItem, reads.readsOnly⟩

theorem scans_keys {keys : List Key} (clear : ∀ key ∈ keys, key.IsClear known) :
    ∃ row, Scans .finish .finish (listText "\nGROUP BY " (keys.map Key.text) "") row ∧
      IsTail known row :=
  scans_grouping (List.forall_mem_map.mpr fun key isKey => Key.scans areNames (clear key isKey))

omit areNames

theorem fromTokens_cases (sources : List (String × Alias)) : fromTokens sources = [] ∨
    fromTokens sources = [.word "FROM", .group (sourceTokens sources)] := by
  unfold fromTokens
  split
  · exact .inl rfl
  · exact .inr rfl

theorem EndsRow.from {tail : List Token} (ends : EndsRow tail) (sources : List (String × Alias)) :
    EndsRow (fromTokens sources ++ tail) := by
  rcases fromTokens_cases sources with none | some
  · rwa [none]
  · rw [some]
    intro token isOne
    obtain rfl := Option.some.inj isOne
    decide

theorem fromless {row : List Token} (closed : ∀ token ∈ row, token.opensTables = false) :
    ∀ token ∈ row, (!token.spells "FROM") = true := by
  intro token isOne
  have closedToken := closed token isOne
  rw [Token.opensTables, Bool.or_eq_false_iff] at closedToken
  rw [closedToken.1, Bool.not_false]

section

variable {sources : List (String × Alias)} {tail : List Token}

/-- A list of tables is not taken for a query. -/
theorem isQuery_sourceTokens (plain : ArePlain known sources)
    (unreserved : ∀ table ∈ known, isReserved table = false) :
    isQuery (sourceTokens sources) = false := by
  cases sources with
  | nil => rfl
  | cons source rest =>
    have other : (Token.word source.1).spells "SELECT" = false :=
      spells_eq_false (isKeyword_word _ ▸ unreserved _ (plain.tables source List.mem_cons_self))
        (by decide)
    obtain ⟨others, begins⟩ : ∃ others, sourceTokens (source :: rest) = .word source.1 :: others := by
      cases rest with
      | nil => exact ⟨[.word source.2.text], rfl⟩
      | cons => exact ⟨_, List.intercalate_cons_cons⟩
    rw [begins, isQuery, other]
    rfl

theorem derivedRows_select {head : List Token} (plain : ArePlain known sources)
    (unreserved : ∀ table ∈ known, isReserved table = false)
    (closed : ∀ token ∈ head, token.opensTables = false)
    (closedTail : ∀ token ∈ tail, token.opensTables = false) :
    derivedRows (head ++ (fromTokens sources ++ tail)) = [] := by
  rw [derivedRows, List.dropWhile_append_of_pos (fromless closed)]
  rcases fromTokens_cases sources with none | some
  · rw [none, List.nil_append, List.dropWhile_eq_nil_iff.mpr (fromless closedTail)]
  · rw [some, List.cons_append, List.dropWhile_cons_of_neg (by decide)]
    exact if_neg (Bool.eq_false_iff.mp (isQuery_sourceTokens plain unreserved))

theorem memberRows_select (distinct : Bool) {items : List (List Token)}
    (each : ∀ item ∈ items, IsItem item) (undivided : ∀ token ∈ tail, token.spells "UNION" = false) :
    memberRows (selectTokens distinct items ++ (fromTokens sources ++ tail)) =
      [selectTokens distinct items ++ (fromTokens sources ++ tail)] := by
  refine memberRows_of_select (List.forall_mem_append.mpr ⟨undivided_select distinct each,
    List.forall_mem_append.mpr ⟨?_, undivided⟩⟩)
  rcases fromTokens_cases sources with none | some
  · rw [none]
    exact List.forall_mem_nil _
  · rw [some]
    exact List.forall_mem_cons.mpr ⟨by decide, List.forall_mem_singleton.mpr rfl⟩

end

/-- What a `SELECT` with these columns is read as. -/
structure Branch.Reads (known : List String) (branch : Branch Statement) (row : List Token) : Prop where
  undivided : memberRows row = [row]
  single : derivedRows row = []
  items : List.Forall₂ (Column.Reads known) branch.columns (listed row)
  tables : NamesOnly known (allRows row)

include areNames

/-- A `SELECT` with more clauses behind it. -/
theorem Branch.scans (unreserved : ∀ table ∈ known, isReserved table = false)
    {branch : Branch Statement} (clear : branch.IsClear known) {more : String}
    {rest : List Token} (scansRest : Scans .finish .finish more rest) (isRest : IsTail known rest) :
    ∃ row, Scans .start .finish (branchText branch ++ more) row ∧ branch.Reads known row := by
  obtain ⟨distinct, columns, _, _, condition, keys⟩ := branch
  obtain ⟨present, clearColumns, ⟨sources, rfl, plain⟩, rfl, leaves, clearKeys⟩ := clear
  dsimp only at *
  obtain ⟨items, related, each⟩ := scans_columns areNames clearColumns
  have some : items ≠ [] := by
    rintro rfl
    cases related
    contradiction
  have head := scans_select distinct some
    (List.forall₂_map_left_iff.mpr (related.imp fun _ _ found => found.1))
  have kept : Condition.KeptByLogic (Quiet known) := keptByLogic_quiet known
  obtain ⟨wheres, isWhere⟩ := exists_scansClause "WHERE"
    (Condition.scans kept condition fun leaf isLeaf => Leaf.scans areNames (leaves leaf isLeaf))
  obtain ⟨groups, scansGroups, isGroups⟩ := scans_keys areNames clearKeys
  have tail := (((isWhere.scans (by decide) (by decide)).append scansGroups).append scansRest)
  have isTail := ((isWhere.isTail (by decide) (by decide) (by decide)).append isGroups).append isRest
  have readsOnly := readsOnly_select distinct fun item isItem => (each item isItem).2
  refine ⟨selectTokens distinct items ++ (fromTokens sources ++ (wheres ++ groups ++ rest)),
    ?_, ?_, ?_, ?_, ?_⟩
  · have whole := head.append ((scans_sources areNames plain).append tail)
    have opening : "\nWHERE " = "\n" ++ "WHERE" ++ " " := rfl
    rw [branchText, sourceTexts_eq, opening]
    simpa only [List.map_nil, String.join_nil, String.append_empty, String.append_assoc] using whole
  · exact memberRows_select distinct (fun item isItem => (each item isItem).1) isTail.undivided
  · exact derivedRows_select plain unreserved readsOnly.closed isTail.readsOnly.closed
  · rw [listed_select distinct some (fun item isItem => (each item isItem).1)
      (isTail.ends.from sources).takeWhile_eq]
    exact related.imp fun _ _ found => found.2
  · exact tables_select readsOnly isTail.readsOnly isTail.ends plain

end

end CypherSql.Sql
