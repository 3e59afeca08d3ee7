import CypherSql.Proofs.Compilation.Plain
import CypherSql.Proofs.Condition.Rereading
import CypherSql.Proofs.Sql.Comparisons

/-! # What SQL reads in a test for a pattern

The rows that a test looks for are written as one `SELECT`, and its condition as text.  Labels stand
in it between quotes, as they are: where they hold no quote, the text asks for an embedding of the
pattern.

* `Subselect.exists_readsText` — the condition of a sub-select is read as a formula.
* `ReadsExistence` — a test for rows with a condition.
* `ReadsEmbedding` — a test for an embedding of a pattern.
* `existence_embeds` — a pattern with plain labels is written as such a test.
* `not_readsEmbedding_quoting` — a label with a quote in it need not be.
-/

namespace CypherSql

open CypherSql.Condition (truthOf)
open CypherSql.Cypher (Pattern)
open CypherSql.Text (isIdentifier)

/-! ## Sub-selects -/

namespace Sql

theorem IsFormula.uncommented {stands : String → Prop} {phrase : Phrase}
    (formula : IsFormula stands phrase) (each : ∀ text ∈ phrase.operands, Uncommented text) :
    Uncommented phrase.fragment.text := by
  induction formula with
  | @operand text _ =>
    have isText : (Phrase.operand (.given text) rfl).fragment.text = text :=
      Fragment.text_singleton _
    exact isText ▸ each text List.mem_cons_self
  | @group inner _ ih =>
    rw [Phrase.text_group]
    exact ((uncommented_of_calm (by decide)).append (ih each)).append
      (uncommented_of_calm (by decide))
  | @not inner _ ih =>
    rw [Phrase.fragment, Fragment.text_cons]
    exact (uncommented_of_calm (by decide)).append (ih each)
  | @binary operator left right logical _ _ ofLeft ofRight =>
    obtain ⟨eachLeft, eachRight⟩ := List.forall_mem_append.mp each
    have between : Uncommented operator.lexeme.text := by
      rcases logical with rfl | rfl <;> exact uncommented_of_calm (by decide)
    rw [Phrase.fragment, Fragment.text_append, Fragment.text_cons]
    exact (ofLeft eachLeft).append (between.append (ofRight eachRight))

/-- The condition of a sub-select is read as a formula over its tests. -/
theorem Subselect.exists_readsText {known : List String} {sub : Subselect} (plain : sub.IsPlain known)
    (solid : sub.condition.isSolid Compilation.blankTest = true) :
    ∃ phrase, (∀ other, ReadsText (sub.condition.text Test.text) other ↔ other = phrase) ∧
      Uncommented (sub.condition.text Test.text) ∧
      ∀ {V : Type} [DecidableEq V] (constant : String → V) (rows : String → Record V),
        truthOf (comparisonHolds constant rows) phrase =
          sub.condition.holds (Test.holds constant fun row => rows row.text) := by
  obtain ⟨phrase, reads, operands, truth⟩ := Condition.exists_readsText solid
    fun test isTest => Test.isAtomic_text (plain.tests test isTest)
  have written := (reads phrase).mpr rfl
  refine ⟨phrase, reads, ?_, fun constant rows => ?_⟩
  · rw [← written.written]
    refine written.formula.uncommented ?_
    rw [operands, List.forall_mem_map]
    exact fun test isTest => Test.uncommented_text (plain.tests test isTest)
  · rw [truth]
    exact Condition.holds_congr _ fun test isTest =>
      Test.comparisonHolds_text (plain.tests test isTest) constant rows

/-- A text is read as a test for rows: one `SELECT`, no union, with these members of its `FROM` and
with this condition behind its `WHERE`. -/
structure ReadsExistence (text : String) (sources : List (String × Alias)) (condition : String) :
    Prop where
  text_eq : text = "EXISTS (SELECT 1\nFROM (" ++
    ", ".intercalate (sources.map fun source => source.1 ++ " " ++ source.2.text) ++
      ")\nWHERE " ++ condition ++ ")"
  tokens_eq : ∃ select members row, tokens text = some [.word "EXISTS", .group select] ∧
    select = [.word "SELECT", .word "1", .word "FROM", .group members, .word "WHERE"] ++ row ∧
    memberRows select = [select] ∧
    parts members = sources.map (fun source => [.word source.1, .word source.2.text]) ∧
    tokens condition = some row

/-- How many members the `FROM` of a test has. -/
def memberCount : List Token → Option Nat
  | [_, .group (_ :: _ :: _ :: .group members :: _)] => some (parts members).length
  | _ => none

theorem ReadsExistence.memberCount {text condition : String} {sources : List (String × Alias)}
    (reads : ReadsExistence text sources condition) :
    (tokens text).bind memberCount = some sources.length := by
  obtain ⟨select, members, row, isRead, rfl, -, areMembers, -⟩ := reads.tokens_eq
  rw [isRead]
  simp [Sql.memberCount, areMembers]

section

variable {known : List String} (areNames : ∀ table ∈ known, isIdentifier table = true)
  {sub : Subselect} (plain : sub.IsPlain known) (present : sub.sources ≠ [])
  {condition : String} (isCondition : sub.condition.text Test.text = condition)

include present isCondition

theorem Subselect.text_existing (traced : condition ≠ "") :
    Fragment.text [.existing sub] = "EXISTS (SELECT 1\nFROM (" ++
      ", ".intercalate (sub.sources.map fun source => source.1 ++ " " ++ source.2.text) ++
        ")\nWHERE " ++ condition ++ ")" := by
  have opened : "EXISTS (SELECT 1\nFROM (" = "EXISTS (" ++ "SELECT 1" ++ "\nFROM (" := rfl
  have closed : ")\nWHERE " = ")" ++ "\nWHERE " := rfl
  rw [Fragment.text_singleton, Lexeme.text, Subselect.text, opened, closed]
  simp only [isCondition, List.isEmpty_map, List.isEmpty_iff, String.isEmpty_iff, present, traced,
    if_false, String.append_assoc]

include areNames plain

/-- What a sub-select is read as, where its condition is not blank. -/
theorem Subselect.scans_existing (traced : condition ≠ "") : ∃ row,
    Scans .start .finish condition row ∧ Quiet known row ∧
      Scans .start .finish (Fragment.text [.existing sub]) [.word "EXISTS", .group
        ([.word "SELECT", .word "1", .word "FROM", .group (sourceTokens sub.sources),
          .word "WHERE"] ++ row)] := by
  obtain ⟨row, scansRow, quiet⟩ := (Condition.scans (keptByLogic_quiet known) sub.condition
    fun test isTest => ⟨test.tokens, Test.scans (plain.tests test isTest),
      Test.quiet (plain.tests test isTest)⟩).resolve_left (isCondition ▸ traced)
  rw [isCondition] at scansRow
  have members := scans_sources areNames plain.sources
  have condition := (scans_line "WHERE" (by decide) (by decide)).append scansRow
  have scans := (scans_exists.append (scans_group
    ((scans_selectOne.append members).append condition)).anywhere).finish
  refine ⟨row, scansRow, quiet, ?_⟩
  have opened : "EXISTS (SELECT 1\nFROM (" = "EXISTS " ++ "(" ++ "SELECT 1" ++ "\nFROM (" := rfl
  have closed : ")\nWHERE " = ")" ++ "\n" ++ "WHERE" ++ " " := rfl
  rw [Subselect.text_existing present isCondition traced, opened, closed]
  simpa only [listText, fromTokens, List.isEmpty_map, List.isEmpty_iff, present, if_false,
    String.append_assoc, List.cons_append, List.nil_append] using scans

/-- A sub-select with plain names and texts is read as the test that it is meant as. -/
theorem Subselect.readsExistence (uncommented : Uncommented condition) {phrase : Phrase}
    (reads : ReadsText condition phrase) :
    ReadsExistence (Fragment.text [.existing sub]) sub.sources condition := by
  have traced := reads.ne_empty
  have isText := Subselect.text_existing present isCondition traced
  obtain ⟨row, scansRow, quiet, scans⟩ :=
    Subselect.scans_existing areNames plain present isCondition traced
  have members : Uncommented
      (", ".intercalate (sub.sources.map fun source => source.1 ++ " " ++ source.2.text)) := by
    refine uncommented_intercalate (uncommented_of_calm (by decide)) ?_
    rw [List.forall_mem_map]
    intro source isSource
    have isTable := isWord_of_isIdentifier (areNames _ (plain.sources.tables source isSource))
    have isRow := Alias.isWord_text (plain.sources.slots source isSource)
    exact ((uncommented_of_isWord isTable).append (uncommented_of_calm (by decide))).append
      (uncommented_of_isWord isRow)
  have noComment : Uncommented (Fragment.text [.existing sub]) := by
    rw [isText]
    exact ((((uncommented_of_calm (by decide)).append members).append
      (uncommented_of_calm (by decide))).append uncommented).append (uncommented_of_calm (by decide))
  refine ⟨isText, _, sourceTokens sub.sources, row, scans.tokens_eq noComment.hasComment, rfl, ?_,
    parts_sourceTokens present, scansRow.tokens_eq uncommented.hasComment⟩
  refine memberRows_of_select (List.forall_mem_append.mpr ⟨?_, fun token isOne => ?_⟩)
  · intro token isOne
    simp only [List.mem_cons, List.not_mem_nil, or_false] at isOne
    rcases isOne with rfl | rfl | rfl | rfl <;> rfl
  · exact spells_eq_false (quiet.words token isOne) (by decide)

end

end Sql

namespace Compilation

/-! ## Tests for patterns -/

/-- A text is read as a test for an embedding of a pattern: for a row of every slot of the pattern,
each under a name of its own, with a condition that holds for the rows that match the pattern. -/
def ReadsEmbedding (settings : Settings) (outer : Graph) (pattern : Pattern) (text : String) : Prop :=
  ∃ inner placements condition phrase,
    placePattern .empty pattern = .ok (placements, inner) ∧
      placements.map Placement.sourced = hopsFrom pattern.node pattern.hops ∧
      (∀ placement ∈ placements, placement.Resolved inner) ∧
      ((patternSources settings inner).map fun source => source.2.text).Nodup ∧
      Sql.ReadsExistence text (patternSources settings inner) condition ∧
      (∀ other, Sql.ReadsText condition other ↔ other = phrase) ∧
      ∀ {V : Type} [DecidableEq V] (constant : String → V) (rows : String → Sql.Record V),
        truthOf (Sql.comparisonHolds constant rows) phrase = true ↔
          IsEmbedding constant (fun row => rows row.text) outer inner placements

/-- A test for a pattern is one `SELECT` over the slots of the pattern.  Where no label of it holds a
quote, SQL reads it as a test for an embedding of the pattern. -/
theorem existence_embeds {settings : Settings} {pattern : Pattern} {state after : CompilerState}
    {compiled : Compiled} (present : pattern.hops ≠ []) (once : (relationshipNames pattern).Nodup)
    (tables : ∀ kind, isIdentifier (settings.table kind) = true) (quoteless : Quoteless pattern.labels)
    (compiles : (existence settings pattern).run.run state = (.ok compiled, after)) :
    ∃ sub, compiled.sql = [.existing sub] ∧
      sub.selection.assemble = .ok (.single sub.branch ⟨none, none⟩) ∧
      (Sql.Statement.single sub.branch ⟨none, none⟩).text = sub.text ∧
      ReadsEmbedding settings state.graph pattern compiled.sql.text := by
  have areNames : ∀ table ∈ settings.tables, isIdentifier table = true :=
    List.forall_mem_cons.mpr ⟨tables .node, List.forall_mem_singleton.mpr (tables .relation)⟩
  have result := existence_result settings pattern (rfl : state.graph.unscoped = state.graph.unscoped)
  rw [compiles] at result
  obtain ⟨embedding, isEmbedding, isCompiled⟩ := Option.map_eq_some_iff.mp result.symm
  obtain ⟨placements, matched⟩ := embeds_matches present once isEmbedding
  have plain := isPlain_subselect settings isEmbedding quoteless
  have solid := Condition.isSolid_flatten _ (isSolid_condition matched.present)
  obtain ⟨phrase, reads, uncommented, truth⟩ := Sql.Subselect.exists_readsText plain solid
  have sources := subselect_sources settings matched.numbered
  have some : (embedding.subselect settings).sources ≠ [] := by
    simp [Embedding.subselect, matched.present]
  have isTest :=
    Sql.Subselect.readsExistence areNames plain some rfl uncommented ((reads phrase).mpr rfl)
  obtain rfl := isCompiled
  refine ⟨embedding.subselect settings, rfl, Sql.Subselect.assemble_selection _,
    Sql.Subselect.text_branch _, embedding.graph, placements, _, phrase, matched.placed,
    matched.sourced, matched.resolved, nodup_patternSources settings embedding.graph,
    sources ▸ isTest, reads, fun constant rows => ?_⟩
  rw [truth, ← matched.holds_iff]
  exact Bool.eq_iff_iff.mp (Condition.holds_flatten _)

/-- `(a)-[r]-(:ip:domain)-->(a)`, a cycle through a node that may be bound outside. -/
def cycle : Pattern where
  node := ⟨some "a", []⟩
  hops := [⟨⟨some "r", [], false, false⟩, ⟨none, ["ip", "domain"]⟩⟩,
    ⟨⟨none, [], false, true⟩, ⟨some "a", []⟩⟩]

/-- Outside there is one node, named `a`. -/
def oneNode : CompilerState :=
  ⟨⟨[⟨0, [], [.clause]⟩], [], [("a", ⟨.node, 0⟩)]⟩, 0⟩

/-- A test for a pattern that compiles to this text there. -/
def writesTest (settings : Settings) (pattern : Pattern) (text : String) : Bool :=
  ((existence settings pattern).run.run oneNode).1.toOption.any fun compiled =>
    compiled.sql.text == text

theorem exists_of_writesTest {settings : Settings} {pattern : Pattern} {text : String}
    (writes : writesTest settings pattern text = true) :
    ∃ compiled after, (existence settings pattern).run.run oneNode = (.ok compiled, after) ∧
      compiled.sql.text = text := by
  obtain ⟨compiled, isCompiled, isText⟩ := (Option.any_eq_true _ _).mp writes
  exact ⟨compiled, _, Prod.ext (toOption_eq_some.mp isCompiled) rfl, beq_iff_eq.mp isText⟩

def cycleText : String :=
  "EXISTS (SELECT 1\nFROM (assets aw0, assets aw1, relations rw0, relations rw1)\n" ++
    "WHERE aw0.id = a0.id AND (aw1.type = 'ip' OR aw1.type = 'domain') AND " ++
    "((rw0.from_id = aw0.id AND rw0.to_id = aw1.id) OR " ++
    "(rw0.from_id = aw1.id AND rw0.to_id = aw0.id)) AND " ++
    "rw1.from_id = aw1.id AND rw1.to_id = aw0.id)"

theorem existence_embeds_cycle :
    cycle.hops ≠ [] ∧ (relationshipNames cycle).Nodup ∧
      (∀ kind, isIdentifier (Settings.standard.table kind) = true) ∧ Quoteless cycle.labels ∧
      ∃ compiled after, (existence .standard cycle).run.run oneNode = (.ok compiled, after) ∧
        compiled.sql.text = cycleText ∧
        ReadsEmbedding .standard oneNode.graph cycle compiled.sql.text := by
  have present : cycle.hops ≠ [] := by decide
  have once : (relationshipNames cycle).Nodup := by decide
  have tables : ∀ kind, isIdentifier (Settings.standard.table kind) = true := by
    rintro (_ | _) <;> decide
  have quoteless : Quoteless cycle.labels := by
    rintro (_ | _) <;> decide
  obtain ⟨compiled, after, ran, isText⟩ :=
    exists_of_writesTest (show writesTest .standard cycle cycleText = true by decide +kernel)
  obtain ⟨_, _, _, _, embeds⟩ := existence_embeds present once tables quoteless ran
  exact ⟨present, once, tables, quoteless, compiled, after, ran, isText, embeds⟩

/-! ### Labels and tables that are not plain -/

/-- A label that ends its quotes, and goes on as a condition of its own. -/
def quoting : Pattern where
  node := ⟨some "a", []⟩
  hops := [⟨⟨none, [], false, true⟩, ⟨none, ["x' OR aw1.type <> 'x"]⟩⟩]

/-- The slots of the pattern. -/
def quotingGraph : Graph :=
  ⟨[⟨0, [], [.clause]⟩, ⟨1, ["x' OR aw1.type <> 'x"], [.clause]⟩],
    [⟨0, [], 0, 1, .right, [.clause]⟩], [("a", ⟨.node, 0⟩)]⟩

def quotingCondition : String :=
  "aw0.id = a0.id AND aw1.type = 'x' OR " ++
    "aw1.type <> 'x' AND rw0.from_id = aw0.id AND rw0.to_id = aw1.id"

def quotingText : String :=
  "EXISTS (SELECT 1\nFROM (" ++ "assets aw0, assets aw1, relations rw0" ++ ")\nWHERE " ++
    quotingCondition ++ ")"

/-- What SQL reads in the condition: a disjunction. -/
def quotingPhrase : Sql.Phrase :=
  let atom (text : String) : Sql.Phrase := .operand (.given text) rfl
  .binary .or (.binary .and (atom "aw0.id = a0.id") (atom "aw1.type = 'x'"))
    (.binary .and (.binary .and (atom "aw1.type <> 'x'") (atom "rw0.from_id = aw0.id"))
      (atom "rw0.to_id = aw1.id"))

theorem readsText_quotingCondition : Sql.ReadsText quotingCondition quotingPhrase where
  formula := by
    refine .binary (.inl rfl) (.binary (.inr rfl) (.operand ?_) (.operand ?_))
      (.binary (.inr rfl) (.binary (.inr rfl) (.operand ?_) (.operand ?_)) (.operand ?_)) <;>
      decide +kernel
  fits := by decide +kernel
  written := by decide +kernel

/-- Rows of type `x` that are no embedding, as their type is not the label. -/
def rowsOfX : String → Sql.Record String :=
  fun _ column => some (if column == "type" then "x" else "1")

theorem not_readsEmbedding_quotingText :
    ¬ReadsEmbedding .standard oneNode.graph quoting quotingText := by
  rintro ⟨inner, placements, condition, phrase, placed, -, -, -, existence, reads, holds⟩
  have isPlaced : (placePattern .empty quoting).toOption.map Prod.snd = some quotingGraph := by
    decide +kernel
  obtain rfl : inner = quotingGraph := by
    rw [placed] at isPlaced
    exact Option.some.inj isPlaced
  have members : ", ".intercalate ((patternSources .standard quotingGraph).map fun source =>
      source.1 ++ " " ++ source.2.text) = "assets aw0, assets aw1, relations rw0" := by
    decide +kernel
  -- The condition stands between the same texts.
  have texts := existence.text_eq
  rw [members] at texts
  unfold quotingText at texts
  rw [String.append_left_inj, String.append_right_inj] at texts
  subst texts
  obtain rfl := (reads quotingPhrase).mp readsText_quotingCondition
  have isTrue : truthOf (Sql.comparisonHolds id rowsOfX) quotingPhrase = true := by decide +kernel
  have embeds := (holds id rowsOfX).mp isTrue
  exact absurd (embeds.typed ⟨.node, 1⟩ (by decide)) (by decide +kernel)

/-- A table that is a table and another one. -/
def twoTables : Settings :=
  { Settings.standard with assetsTable := "assets, secrets" }

/-- `(a)-->()`. -/
def onward : Pattern where
  node := ⟨some "a", []⟩
  hops := [⟨⟨none, [], false, true⟩, ⟨none, []⟩⟩]

def twoTablesText : String :=
  "EXISTS (SELECT 1\nFROM (assets, secrets aw0, assets, secrets aw1, relations rw0)\n" ++
    "WHERE aw0.id = a0.id AND rw0.from_id = aw0.id AND rw0.to_id = aw1.id)"

theorem not_readsEmbedding_twoTablesText :
    ¬ReadsEmbedding twoTables oneNode.graph onward twoTablesText := by
  rintro ⟨inner, placements, condition, phrase, placed, -, -, -, existence, -, -⟩
  have slots : ((placePattern .empty onward).toOption.map fun placed =>
      (patternSources twoTables placed.2).length) = some 3 := by
    decide +kernel
  have members : (Sql.tokens twoTablesText).bind Sql.memberCount = some 5 := by decide +kernel
  rw [placed] at slots
  rw [existence.memberCount] at members
  exact absurd (members.symm.trans slots) (by decide)

/-- A label with a quote in it is read as more than a label, and a table that is no name as more than
a table. -/
theorem not_readsEmbedding_quoting :
    quoting.hops ≠ [] ∧ (relationshipNames quoting).Nodup ∧
      (∃ compiled after, (existence .standard quoting).run.run oneNode = (.ok compiled, after) ∧
        ¬ReadsEmbedding .standard oneNode.graph quoting compiled.sql.text) ∧
      ∃ compiled after, (existence twoTables onward).run.run oneNode = (.ok compiled, after) ∧
        ¬ReadsEmbedding twoTables oneNode.graph onward compiled.sql.text := by
  obtain ⟨first, after, ran, isText⟩ :=
    exists_of_writesTest (show writesTest .standard quoting quotingText = true by decide +kernel)
  obtain ⟨second, after', ran', isText'⟩ :=
    exists_of_writesTest (show writesTest twoTables onward twoTablesText = true by decide +kernel)
  exact ⟨by decide, by decide, ⟨first, after, ran, isText ▸ not_readsEmbedding_quotingText⟩,
    ⟨second, after', ran', isText' ▸ not_readsEmbedding_twoTablesText⟩⟩

end Compilation

end CypherSql
