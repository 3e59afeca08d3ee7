import CypherSql.Proofs.Cypher.Expressions

/-! # How queries are read

* `projectionItems_reads`, `matchClause_accepts`, … — items and clauses in front of what
  follows them.
* `query_accepts` — the clauses of a query in any order.
* `Query.parse_text` — a canonical query is read back from its text.
-/

namespace CypherSql.Cypher

namespace Parser

variable {α : Type} {level : Nat} {rest : List Char}

/-! ## Items -/

theorem Reads.commit {parser : Parser α} {opens : List Char → Prop} {text : List Char}
    {value : α} (reads : Reads parser opens level text value) :
    Reads (Parser.commit parser) opens level text value :=
  ⟨reads.opens, fun rest tail => commit_accepts (reads.accepts rest tail)⟩

theorem pattern_reads {pattern : Pattern} (canonical : pattern.canonical = true) :
    Reads Parser.pattern (fun input => dropSpaces input = input) level pattern.chars pattern :=
  ⟨fun _ _ => rfl, fun _ tail => pattern_accepts canonical tail.hop_rejects⟩

theorem itemName_accepts {name : String} (free : isFreeName name = true) (tail : Tail level rest) :
    itemName (dropSpaces (spaced "AS" ++ (name.toList ++ rest))) =
      .accept name (dropSpaces rest) := by
  obtain ⟨plain, unreserved⟩ := isFreeName_iff.mp free
  have marks : Marks (keyword "AS") () .naming := marks_keyword fun _ => rfl
  have bare := @dropSpaces_name rest _ plain
  have named : spacing variableName (name.toList ++ rest) = .accept name (dropSpaces rest) := by
    refine spacing_accepts ?_
    rw [bare]
    exact variableName_accepts plain unreserved tail.endsAtom.boundary
  exact (bind_accepts (marks _ bare)).trans (inContext_accepts (commit_accepts named))

theorem projectionItem_reads {item : ProjectionItem} (canonical : item.canonical = true) :
    Reads projectionItem OpensExpression 9 item.chars item := by
  obtain ⟨value, name⟩ := item
  rw [ProjectionItem.canonical, Bool.and_eq_true] at canonical
  have reads := expression_reads canonical.1
  cases name with
  | none =>
    have unfolded : ProjectionItem.chars ⟨value, none⟩ = value.chars := List.append_nil _
    rw [unfolded]
    constructor
    · exact fun rest tail => reads.opens rest (tail.mono (by decide))
    · intro rest tail
      have noName : Rejects itemName (dropSpaces rest) := by
        have rejected := tail.reader_rejects .naming (by decide)
        rw [← dropSpaces_dropSpaces] at rejected
        exact bind_rejects (spacing_rejects rejected)
      rw [projectionItem, bind_accepts (reads.accepts rest (tail.mono (by decide))),
        bind_accepts (optional_rejected noName)]
      rfl
  | some name =>
    have named : ∀ rest, Tail 8 (spaced "AS" ++ (name.toList ++ rest)) := fun rest =>
      @tail_ending (name.toList ++ rest) 8 .naming le_rfl trivial
    have unfolded : ∀ rest, ProjectionItem.chars ⟨value, some name⟩ ++ rest =
        value.chars ++ (spaced "AS" ++ (name.toList ++ rest)) := by
      intro rest
      simp only [ProjectionItem.chars, List.append_assoc]
    constructor
    · intro rest _
      rw [unfolded]
      exact reads.opens _ (named rest)
    · intro rest tail
      rw [unfolded, projectionItem, bind_accepts (reads.accepts _ (named rest)),
        bind_accepts (optional_accepts (itemName_accepts canonical.2 tail))]
      rfl

theorem commas_read {item : Parser α} {opens : List Char → Prop} {text : α → List Char}
    {values : List α} (some : (!values.isEmpty) = true)
    (each : ∀ value ∈ values, Reads item opens 9 (text value) value)
    (bare : ∀ input, opens input → dropSpaces input = input) :
    Reads (separated (spacing (char ',')) (Parser.commit item)) opens 10
      (joined [',', ' '] (values.map text)) values := by
  cases values with
  | nil => simp at some
  | cons first others =>
    exact separated_reads_joined marks_comma (fun _ => trivial)
      (fun value isIn => (each value isIn).commit) (fun _ => bare)
      fun rest tail => tail.comma_rejects

/-! ## Optional parts of a clause -/

theorem optionalClause_accepts {word : String} {context : Context} {value : Option Expression}
    (ending : Ending) (isText : ending.chars = spaced word) (isReader : ending.reader = keyword word)
    (shape : ∀ input, dropSpaces (ending.chars ++ input) = word.toList ++ ' ' :: input)
    (free : ∀ input, ending.Allows input) (above : 8 ≤ ending.rank + 1)
    (canonical : value.all Expression.canonical = true) (tail : Tail (ending.rank + 1) rest) :
    Tail ending.rank (optionalChars word value ++ rest) ∧
      optional (pageClause word context) (dropSpaces (optionalChars word value ++ rest)) =
        .accept value (dropSpaces rest) := by
  cases value with
  | none =>
    have rejected := tail.reader_rejects ending (Nat.lt_succ_self _)
    rw [isReader, ← dropSpaces_dropSpaces] at rejected
    exact ⟨tail.mono (Nat.le_succ _),
      optional_rejected (bind_rejects (spacing_rejects rejected))⟩
  | some value =>
    have reads := expression_reads canonical
    have opens := reads.opens rest (tail.mono above)
    have mark := marks_keyword shape _ opens.bare
    rw [optionalChars, ← isText, List.append_assoc]
    refine ⟨tail_ending le_rfl (free _), optional_accepts ?_⟩
    exact (bind_accepts mark).trans
      (inContext_accepts (commit_accepts (reads.accepts rest (tail.mono above))))

theorem where_accepts {value : Option Expression}
    (canonical : value.all Expression.canonical = true) (tail : Tail 11 rest) :
    Tail 10 (optionalChars "WHERE" value ++ rest) ∧
      optional whereClause (dropSpaces (optionalChars "WHERE" value ++ rest)) =
        .accept value (dropSpaces rest) :=
  optionalClause_accepts .condition rfl rfl (fun _ => rfl) (fun _ => trivial) (by decide)
    canonical tail

/-! ## Clauses -/

theorem clauseKeyword_accepts {word : String} {input : List Char}
    (shown : ∀ rest, dropSpaces (word.toList ++ rest) = word.toList ++ rest)
    (bare : dropSpaces input = input) :
    spacing (keyword word) (word.toList ++ ' ' :: input) = .accept () input := by
  have read := @keyword_spaced input word shown
  rwa [bare] at read

theorem matchClause_accepts {clause : MatchClause} (canonical : clause.canonical = true)
    (tail : Tail 11 rest) :
    matchClause (clause.chars ++ rest) = .accept clause (dropSpaces rest) := by
  simp only [MatchClause.canonical, Bool.and_eq_true, List.all_eq_true] at canonical
  obtain ⟨⟨some, patterns⟩, predicate⟩ := canonical
  obtain ⟨tailPatterns, whereRead⟩ := where_accepts predicate tail
  have reads := commas_read some (fun pattern isIn => pattern_reads (patterns pattern isIn))
    fun _ bare => bare
  have shape : clause.chars ++ rest = "MATCH".toList ++ ' ' ::
      (joined [',', ' '] (clause.patterns.map Pattern.chars) ++
        (optionalChars "WHERE" clause.predicate ++ rest)) := by
    have unfolded : clause.chars = "MATCH ".toList ++
      joined [',', ' '] (clause.patterns.map Pattern.chars) ++
        optionalChars "WHERE" clause.predicate := rfl
    rw [unfolded, List.append_assoc, List.append_assoc]
    rfl
  rw [shape, matchClause,
    bind_accepts (clauseKeyword_accepts (fun _ => rfl) (reads.opens _ tailPatterns)),
    bind_accepts (inContext_accepts (reads.accepts _ tailPatterns)), bind_accepts whereRead]
  rfl

theorem projectionItems_reads {items : List ProjectionItem} (some : (!items.isEmpty) = true)
    (canonical : ∀ item ∈ items, item.canonical = true) :
    Reads projectionItems OpensExpression 10 (joined [',', ' '] (items.map ProjectionItem.chars))
      items :=
  commas_read some (fun item isIn => projectionItem_reads (canonical item isIn))
    fun _ opens => opens.bare

theorem withClause_accepts {clause : WithClause} (canonical : clause.canonical = true)
    (tail : Tail 11 rest) :
    withClause (clause.chars ++ rest) = .accept clause (dropSpaces rest) := by
  simp only [WithClause.canonical, Bool.and_eq_true, List.all_eq_true] at canonical
  obtain ⟨⟨some, items⟩, predicate⟩ := canonical
  obtain ⟨tailItems, whereRead⟩ := where_accepts predicate tail
  have reads := projectionItems_reads some items
  have shape : clause.chars ++ rest = "WITH".toList ++ ' ' ::
      (joined [',', ' '] (clause.items.map ProjectionItem.chars) ++
        (optionalChars "WHERE" clause.predicate ++ rest)) := by
    have unfolded : clause.chars = "WITH ".toList ++
      joined [',', ' '] (clause.items.map ProjectionItem.chars) ++
        optionalChars "WHERE" clause.predicate := rfl
    rw [unfolded, List.append_assoc, List.append_assoc]
    rfl
  rw [shape, withClause,
    bind_accepts (clauseKeyword_accepts (fun _ => rfl) (reads.opens _ tailItems).bare),
    bind_accepts (inContext_accepts (reads.accepts _ tailItems)), bind_accepts whereRead]
  rfl

theorem returnClause_accepts {clause : ReturnClause} (canonical : clause.canonical = true)
    (tail : Tail 13 rest) :
    returnClause (clause.chars ++ rest) = .accept clause (dropSpaces rest) := by
  simp only [ReturnClause.canonical, Bool.and_eq_true, List.all_eq_true] at canonical
  obtain ⟨⟨⟨some, items⟩, skip⟩, limit⟩ := canonical
  -- From the end to the front: each part has to know what follows it.
  obtain ⟨tailLimit, limitRead⟩ := @optionalClause_accepts _ "LIMIT" .limitClause _ .limit rfl rfl
    (fun _ => rfl) (fun _ => trivial) (by decide) limit tail
  obtain ⟨tailSkip, skipRead⟩ := @optionalClause_accepts _ "SKIP" .skipClause _ .skip rfl rfl
    (fun _ => rfl) (fun _ => trivial) (by decide) skip tailLimit
  have tailItems := tailSkip.mono (by decide : 10 ≤ Ending.skip.rank)
  have reads := projectionItems_reads some items
  have opens := reads.opens _ tailItems
  obtain ⟨word, wordRead, isWord⟩ :=
    @distinct_accepts clause.distinct _ opens.bare opens.notDistinct
  have shape : clause.chars ++ rest = "RETURN".toList ++ ' ' :: (distinctChars clause.distinct ++
      (joined [',', ' '] (clause.items.map ProjectionItem.chars) ++
        (optionalChars "SKIP" clause.skip ++ (optionalChars "LIMIT" clause.limit ++ rest)))) := by
    have unfolded : clause.chars = "RETURN ".toList ++ distinctChars clause.distinct ++
      joined [',', ' '] (clause.items.map ProjectionItem.chars) ++
        optionalChars "SKIP" clause.skip ++ optionalChars "LIMIT" clause.limit := rfl
    rw [unfolded, List.append_assoc, List.append_assoc, List.append_assoc, List.append_assoc]
    rfl
  rw [shape, returnClause,
    bind_accepts (clauseKeyword_accepts (fun _ => rfl) (dropSpaces_distinctChars opens.bare)),
    bind_accepts wordRead, bind_accepts (inContext_accepts (reads.accepts _ tailItems)),
    bind_accepts skipRead, bind_accepts limitRead, isWord]
  rfl

/-! ## Whole queries -/

def ReadingClause.canonical : ReadingClause → Bool
  | matching clause => clause.canonical
  | passing clause => clause.canonical

/-- A clause begins with its keyword, so it ends the clause in front of it. -/
theorem tail_readingClause (clause : ReadingClause) :
    Tail 13 (' ' :: (clause.chars ++ rest)) ∧
      dropSpaces (clause.chars ++ rest) = clause.chars ++ rest := by
  cases clause with
  | matching clause => exact ⟨.inr ⟨.matching, _, rfl, le_rfl, trivial⟩, rfl⟩
  | passing clause => exact ⟨.inr ⟨.passing, _, rfl, le_rfl, trivial⟩, rfl⟩

theorem readingClause_accepts {clause : ReadingClause} (canonical : clause.canonical = true)
    (tail : Tail 13 (' ' :: rest)) :
    readingClause (clause.chars ++ ' ' :: rest) = .accept clause (dropSpaces rest) := by
  have above := tail.mono (by decide : 11 ≤ 13)
  cases clause with
  | matching clause => exact orElse_first (bind_accepts (matchClause_accepts canonical above))
  | passing clause =>
    have notMatch : Rejects (do let clause ← matchClause; return ReadingClause.matching clause)
      ((ReadingClause.passing clause).chars ++ ' ' :: rest) := bind_rejects (bind_rejects ⟨_, rfl⟩)
    rw [readingClause, orElse_second notMatch]
    exact bind_accepts (withClause_accepts canonical above)

theorem readingClauses_accept {clauses : List ReadingClause}
    (canonical : ∀ clause ∈ clauses, clause.canonical = true) (tail : Tail 13 (' ' :: rest))
    (stops : Rejects readingClause (dropSpaces rest)) :
    many readingClause (dropSpaces (clauses.flatMap (fun clause => clause.chars ++ [' ']) ++ rest)) =
      .accept clauses (dropSpaces rest) := by
  have each : ∀ clause ∈ clauses, ∀ more, Tail 13 (' ' :: more) →
      Tail 13 (' ' :: (clause.chars ++ [' '] ++ more)) ∧
        readingClause (dropSpaces (clause.chars ++ [' '] ++ more)) =
          .accept clause (dropSpaces more) := by
    intro clause isIn more tail
    rw [List.append_assoc]
    obtain ⟨tailHere, bare⟩ := @tail_readingClause ([' '] ++ more) clause
    refine ⟨tailHere, ?_⟩
    rw [bare]
    exact readingClause_accepts (canonical clause isIn) tail
  have shown : ∀ clause ∈ clauses, 0 < visible (clause.chars ++ [' ']) := by
    intro clause _
    cases clause with
    | matching clause => exact visible_pos (List.mem_cons_self : 'M' ∈ _) rfl
    | passing clause => exact visible_pos (List.mem_cons_self : 'W' ∈ _) rfl
  exact (many_reads each shown tail stops).2

theorem query_accepts {clauses : List ReadingClause} {body : ReturnClause} {semicolon : Bool}
    (canonical : ∀ clause ∈ clauses, clause.canonical = true)
    (bodyCanonical : body.canonical = true) :
    query (Query.chars clauses body semicolon) = .accept
      ⟨clauses.filterMap ReadingClause.matching?, clauses.filterMap ReadingClause.passing?, body⟩
      [] := by
  obtain ⟨ending, isEnding⟩ : ∃ ending, ending = if semicolon then [';'] else [] := ⟨_, rfl⟩
  have shape : Query.chars clauses body semicolon =
      clauses.flatMap (fun clause => clause.chars ++ [' ']) ++ (body.chars ++ ending) := by
    rw [Query.chars, isEnding, List.append_assoc]
  have tailBody : Tail 13 ending := by
    cases semicolon with
    | true => exact isEnding ▸ @tail_ending [] 13 .semicolon (by decide) trivial
    | false => exact isEnding ▸ tail_nil
  have last : ∃ final, optional (spacing (char ';')) (dropSpaces ending) = .accept final [] := by
    cases semicolon with
    | true => exact ⟨some ';', isEnding ▸ rfl⟩
    | false => exact ⟨none, isEnding ▸ rfl⟩
  obtain ⟨final, lastRead⟩ := last
  have returning : Tail 13 (' ' :: (body.chars ++ ending)) :=
    .inr ⟨.returning, _, rfl, le_rfl, trivial⟩
  -- `RETURN` begins neither of the two clauses that can stand in front of it.
  have stops : Rejects readingClause (dropSpaces (body.chars ++ ending)) :=
    orElse_rejects (bind_rejects (bind_rejects ⟨_, rfl⟩)) (bind_rejects (bind_rejects ⟨_, rfl⟩))
  have clausesRead := readingClauses_accept canonical returning stops
  have bareBody : dropSpaces (body.chars ++ ending) = body.chars ++ ending := rfl
  rw [bareBody] at clausesRead
  have bodyRead := returnClause_accepts bodyCanonical tailBody
  rw [shape, query, bind_accepts spaces_accepts, bind_accepts clausesRead,
    bind_accepts (inContext_accepts (commit_accepts bodyRead)), bind_accepts lastRead]
  rfl

end Parser

open CypherSql.Cypher.Parser (ReadingClause)

/-- A canonical query is read back from its text, in whatever order its clauses are
written. -/
theorem Query.parse_text (query : Query) (clauses : List ReadingClause) (semicolon : Bool)
    (canonical : query.canonical = true) (interleaved : query.Interleaves clauses) :
    Query.parse (query.text clauses semicolon) = .ok query := by
  obtain ⟨matches_eq, passes_eq⟩ := interleaved
  simp only [Query.canonical, Bool.and_eq_true, List.all_eq_true] at canonical
  obtain ⟨⟨matching, passing⟩, body⟩ := canonical
  have clausesCanonical : ∀ clause ∈ clauses, clause.canonical = true := by
    intro clause isIn
    cases clause with
    | matching clause =>
      refine matching clause ?_
      rw [← matches_eq]
      exact List.mem_filterMap.mpr ⟨_, isIn, rfl⟩
    | passing clause =>
      refine passing clause ?_
      rw [← passes_eq]
      exact List.mem_filterMap.mpr ⟨_, isIn, rfl⟩
  have read := @Parser.query_accepts clauses query.returnClause semicolon clausesCanonical body
  rw [matches_eq, passes_eq] at read
  rw [Query.parse, Parser.whole, Query.text, String.toList_ofList, read]
  rfl

def Term.alone (term : Term) : Expression :=
  ⟨[⟨[⟨[⟨false, ⟨⟨⟨[⟨false, term, []⟩]⟩, []⟩, []⟩, []⟩]⟩]⟩]⟩

/-- `NOT c.cost - (1 + d) < -(c)-[]-(d)`, with a sign, a difference and an arrow. -/
def marksCondition : Expression :=
  let inner : Addition :=
    ⟨⟨⟨[⟨false, ⟨.literal (.integer 1), []⟩, []⟩]⟩, []⟩,
      [(.plus, ⟨⟨[⟨false, ⟨.name "d", []⟩, []⟩]⟩, []⟩)]⟩
  let parenthesis : Term := ⟨.parenthesized ⟨[⟨[⟨[⟨false, inner, []⟩]⟩]⟩]⟩, []⟩
  let left : Addition :=
    ⟨⟨⟨[⟨false, ⟨.name "c", ["cost"]⟩, []⟩]⟩, []⟩,
      [(.minus, ⟨⟨[⟨false, parenthesis, []⟩]⟩, []⟩)]⟩
  let hop : Hop := ⟨⟨none, [], false, false⟩, ⟨some "d", []⟩⟩
  let right : Addition :=
    ⟨⟨⟨[⟨true, ⟨.pattern ⟨⟨some "c", []⟩, [hop]⟩, []⟩, []⟩]⟩, []⟩, []⟩
  ⟨[⟨[⟨[⟨true, left, [(.less, right)]⟩]⟩]⟩]⟩

def interleavedQuery : Query where
  matchClauses :=
    [⟨[⟨⟨some "a", ["ip", "as"]⟩, [⟨⟨some "r", ["has", "or"], true, false⟩, ⟨some "b", []⟩⟩]⟩],
      some (Term.alone ⟨.call "exists" false [Term.alone ⟨.name "b", ["value"]⟩], []⟩)⟩,
      ⟨[⟨⟨some "d", []⟩, []⟩], some marksCondition⟩]
  withClauses := [⟨[⟨Term.alone ⟨.name "a", []⟩, some "c"⟩, ⟨Term.alone ⟨.name "d", []⟩, none⟩], none⟩]
  returnClause :=
    ⟨true, [⟨Term.alone ⟨.call "COUNT" true [Term.alone ⟨.name "c", []⟩], []⟩, some "n"⟩], none,
      some (Term.alone ⟨.literal (.integer 10), []⟩)⟩

def interleavedText : String :=
  "MATCH (a:ip:as)<-[r:has|or]-(b) WHERE exists(b.value) WITH a AS c, d MATCH (d) " ++
    "WHERE NOT c.cost - (1 + d) < -(c)-[]-(d) RETURN DISTINCT COUNT(DISTINCT c) AS n LIMIT 10;"

theorem parse_text_interleaved :
    interleavedQuery.canonical = true ∧ Query.parse interleavedText = .ok interleavedQuery := by
  have canonical : interleavedQuery.canonical = true := by decide +kernel
  have text : interleavedQuery.text
      [.matching interleavedQuery.matchClauses[0], .passing interleavedQuery.withClauses[0],
        .matching interleavedQuery.matchClauses[1]] true = interleavedText := by
    decide +kernel
  have read := Query.parse_text interleavedQuery
    [.matching interleavedQuery.matchClauses[0], .passing interleavedQuery.withClauses[0],
      .matching interleavedQuery.matchClauses[1]] true canonical ⟨rfl, rfl⟩
  rw [text] at read
  exact ⟨canonical, read⟩

end CypherSql.Cypher
