import CypherSql.Proofs.Compilation.Closed
import CypherSql.Proofs.Compilation.Labels
import CypherSql.Proofs.Settings.Described
import CypherSql.Proofs.Sql.Clarity

/-! # Queries with plain names and texts

Names, labels and texts become part of the SQL as they are.  Most names of a query do not: variables
stand for rows, and names that `WITH` gives for what they were given to.

* `Query.writtenNames`, `Query.writtenTexts` — the names and texts that become part of the SQL.
* `Query.isPlain`, `Query.isUnreserved` — identifiers and texts without quotes, and no keywords.
* `accepts_plain`, `accepts_avoids` — then the operands of its expressions are plain, and they name
  no keyword.
* `Query.selection_clear` — so all parts of the SQL of a query are clear.
* `Query.IsClear`, `Query.compile_reads` — a query whose SQL is read as it is meant.
-/

namespace CypherSql

open CypherSql.Cypher
open CypherSql.Compilation
open CypherSql.Graph (Slot SlotKind)
open CypherSql.Sql (Alias Branch Fragment IsName Lexeme Statement Test isReserved)
open CypherSql.Text (isIdentifier)

/-! ## What becomes part of the SQL -/

namespace Cypher

/-- Properties do, and a name without any if nothing of that name is known. -/
def Names.written (known : Names) : Ingredient → List String
  | .name name [] => if known.resolves (.name name []) then [] else [name]
  | .name _ path => path
  | .literal _ | .call _ | .countAll | .pattern _ => []

def Ingredient.text? : Ingredient → Option String
  | .literal (.string text) => some text
  | _ => none

def Stage.writtenNames (stage : Stage) : List String :=
  stage.event.ingredients.flatMap stage.known.written

def Query.writtenNames (query : Query) : List String :=
  query.stages.flatMap Stage.writtenNames

/-- Texts between quotes: constants, and labels of nodes and relationships. -/
def Query.writtenTexts (query : Query) : List String :=
  (query.stages.flatMap fun stage => stage.event.ingredients.filterMap Ingredient.text?) ++
    query.labels .node ++ query.labels .relation

/-- Names are identifiers, and no text holds a quote. -/
def Query.isPlain (query : Query) : Bool :=
  query.writtenNames.all isIdentifier &&
    query.writtenTexts.all fun text => !text.toList.contains '\''

/-- Neither a name nor the name of a column is a keyword of a `SELECT`. -/
def Query.isUnreserved (query : Query) : Bool :=
  (query.writtenNames ++ query.returnClause.items.filterMap Layout.columnName).all
    fun name => !isReserved name

end Cypher

/-! ## Tables -/

/-- The tables for nodes and for relationships. -/
def Settings.tables (settings : Settings) : List String :=
  [settings.table .node, settings.table .relation]

theorem Settings.table_mem (settings : Settings) (kind : SlotKind) :
    settings.table kind ∈ settings.tables := by
  cases kind <;> simp [tables]

namespace Compilation

theorem mem_slotTables {settings : Settings} {graph : Graph} {source : Sql.Source Statement}
    (isOne : source ∈ slotTables settings graph) :
    ∃ slot : Slot, source = .table (settings.table slot.kind) (some (.outer slot)) := by
  rcases List.mem_append.mp isOne with isNode | isRelation
  · obtain ⟨node, -, rfl⟩ := List.mem_map.mp isNode
    exact ⟨⟨.node, node.id⟩, rfl⟩
  · obtain ⟨relation, -, rfl⟩ := List.mem_map.mp isRelation
    exact ⟨⟨.relation, relation.id⟩, rfl⟩

theorem mem_sources_subselect {settings : Settings} {embedding : Embedding}
    {source : String × Sql.Alias} (isOne : source ∈ (embedding.subselect settings).sources) :
    ∃ slot : Slot, source = (settings.table slot.kind, .inner slot) := by
  rcases List.mem_append.mp isOne with isNode | isRelation
  · obtain ⟨node, -, rfl⟩ := List.mem_map.mp isNode
    exact ⟨⟨.node, node.id⟩, rfl⟩
  · obtain ⟨relation, -, rfl⟩ := List.mem_map.mp isRelation
    exact ⟨⟨.relation, relation.id⟩, rfl⟩

/-- The tables of the slots of a graph with the names of their rows. -/
def patternTables (settings : Settings) (graph : Graph) : List (String × Alias) :=
  graph.nodes.map (fun node => (settings.assetsTable, nodeRow node.id)) ++
    graph.relations.map fun relation => (settings.relationsTable, relationRow relation.id)

theorem arePlain_patternTables (settings : Settings) (graph : Graph) :
    Sql.ArePlain settings.tables (patternTables settings graph) := by
  constructor
  case tables =>
    refine List.forall_mem_append.mpr ⟨List.forall_mem_map.mpr fun node _ => ?_,
      List.forall_mem_map.mpr fun relation _ => ?_⟩
    · exact settings.table_mem .node
    · exact settings.table_mem .relation
  case slots =>
    exact List.forall_mem_append.mpr ⟨List.forall_mem_map.mpr fun _ _ => rfl,
      List.forall_mem_map.mpr fun _ _ => rfl⟩

/-! ## Tests -/

/-- No text that would become part of the SQL between quotes holds one. -/
def Quoteless (labels : SlotKind → List String) : Prop :=
  ∀ kind, ∀ label ∈ labels kind, '\'' ∉ label.toList

theorem isPlain_of_mem_endCondition {relation left right : Alias} {direction : Graph.Direction}
    (isSlot : relation.isSlot = true ∧ left.isSlot = true ∧ right.isSlot = true) {test : Test}
    (isEnd : test ∈ (endCondition relation left right direction).leaves) : test.IsPlain := by
  obtain ⟨node, isNode, runs⟩ := mem_leaves_endCondition isEnd
  have nodeIsSlot : node.isSlot = true := by
    rcases isNode with rfl | rfl
    · exact isSlot.2.1
    · exact isSlot.2.2
  rcases runs with rfl | rfl <;> exact ⟨isSlot.1, nodeIsSlot⟩

/-- The tests of the slots of a graph. -/
theorem isPlain_of_mem_shapeTests {settings : Settings} {graph : Graph} {predicates : Predicates}
    (quoteless : Quoteless graph.allLabels) {test : Test}
    (isOne : test ∈ shapeTests settings graph predicates) : test.IsPlain := by
  rcases (mem_shapeTests _ _ _).mp isOne with ⟨node, isNode, label, isLabel, rfl⟩ |
    ⟨relation, isRelation, ⟨label, isLabel, rfl⟩ | isEnd⟩
  · exact ⟨rfl, quoteless .node label (List.mem_flatMap.mpr ⟨node, isNode, isLabel⟩)⟩
  · exact ⟨rfl, quoteless .relation label (List.mem_flatMap.mpr ⟨relation, isRelation, isLabel⟩)⟩
  · exact isPlain_of_mem_endCondition ⟨rfl, rfl, rfl⟩ isEnd

/-- A sub-select for a pattern without quotes in its labels. -/
theorem isPlain_subselect (settings : Settings) {outer : Graph} {pattern : Pattern}
    {embedding : Embedding} (isEmbedding : embeds outer pattern = some embedding)
    (quoteless : Quoteless pattern.labels) :
    (embedding.subselect settings).IsPlain settings.tables := by
  obtain ⟨_, _, _, tied⟩ := embeds_tied isEmbedding
  have inGraph : Quoteless embedding.graph.allLabels :=
    fun kind label isLabel => quoteless kind label (mem_labels_of_embeds isEmbedding isLabel)
  constructor
  case sources =>
    constructor
    case tables =>
      intro source isSource
      obtain ⟨slot, rfl⟩ := mem_sources_subselect isSource
      exact settings.table_mem slot.kind
    case slots =>
      intro source isSource
      obtain ⟨slot, rfl⟩ := mem_sources_subselect isSource
      rfl
  case tests =>
    intro test isTest
    rcases mem_leaves_subselect.mp isTest with isTie | ⟨node, isNode, label, isLabel, rfl⟩ |
      ⟨relation, isRelation, ⟨label, isLabel, rfl⟩ | isEnd⟩
    · obtain ⟨_, _, _, _, rfl⟩ := (tied.ties test).mp isTie
      exact ⟨rfl, rfl⟩
    · exact ⟨rfl, inGraph .node label (List.mem_flatMap.mpr ⟨node, isNode, isLabel⟩)⟩
    · exact ⟨rfl, inGraph .relation label (List.mem_flatMap.mpr ⟨relation, isRelation, isLabel⟩)⟩
    · exact isPlain_of_mem_endCondition ⟨rfl, rfl, rfl⟩ isEnd

/-! ## Labels of a run -/

theorem Step.labels_origin {draft after : Draft} {event : Event} (step : Step draft event after)
    {kind : SlotKind} {label : String} (isLabel : label ∈ after.progress.graph.allLabels kind) :
    label ∈ draft.progress.graph.allLabels kind ∨
      ∃ pattern ∈ event.patterns, label ∈ pattern.labels kind := by
  cases step with
  | @mention pattern graph bound =>
    exact ((mem_allLabels_of_bindPattern bound).mp isLabel).imp_right
      fun inPattern => ⟨pattern, List.mem_singleton_self _, inPattern⟩
  | filter compiles | give compiles | keep compiles | pass compiles | list compiles =>
    exact .inl (Graph.allLabels_eq_of_unscoped (Progress.compile_ok compiles).1 kind ▸ isLabel)

/-- The labels at the end of a run are those of the start, and those of its patterns. -/
theorem Run.labels_origin {draft final : Draft} {events : List Event} (run : Run draft events final)
    {kind : SlotKind} {label : String} (isLabel : label ∈ final.progress.graph.allLabels kind) :
    label ∈ draft.progress.graph.allLabels kind ∨
      ∃ event ∈ events, ∃ pattern ∈ event.patterns, label ∈ pattern.labels kind := by
  induction run with
  | nil => exact .inl isLabel
  | cons step _ ih =>
    rcases ih isLabel with early | ⟨event, isEvent, written⟩
    · exact (step.labels_origin early).imp_right fun written => ⟨_, List.mem_cons_self, written⟩
    · exact .inr ⟨event, List.mem_cons_of_mem _ isEvent, written⟩

/-! ## Lexemes of a run -/

theorem plain_ofRows (known : List String) : OfRows (Lexeme.IsPlain known) where
  fixed lexeme isFixed := by
    cases lexeme with
    | literal value =>
      cases value with
      | string => contradiction
      | integer | float | boolean | null => rintro _ ⟨⟩
    | field | word | existing | given => contradiction
    | star | compare | add | multiply | like | negate | not | and | or | function | distinct | comma
    | opening | closing => trivial
  column row kind column isColumn number := by
    have areNames : ∀ column ∈ Sql.rowColumns kind, isIdentifier column = true := by
      cases kind <;> decide
    exact ⟨number.1, List.cons_ne_nil _ _, List.forall_mem_singleton.mpr (areNames column isColumn)⟩

theorem avoids_ofRows : OfRows Lexeme.Avoids where
  fixed lexeme isFixed := by
    cases lexeme with
    | field | word => contradiction
    | literal | existing | given | star | compare | add | multiply | like | negate | not | and | or
    | function | distinct | comma | opening | closing => trivial
  column row kind column isColumn _ := by
    have unreserved : ∀ column ∈ Sql.rowColumns kind, isReserved column = false := by
      cases kind <;> decide
    exact List.forall_mem_singleton.mpr (unreserved column isColumn)

theorem quoteless_likePattern {text : String} (quoteless : '\'' ∉ text.toList)
    (operator : StringOperator) : '\'' ∉ (likePattern operator text).toList := by
  cases operator <;> simp [likePattern, quoteless]

section

variable {query : Query} {stage : Stage} (isStage : stage ∈ query.stages)

include isStage

theorem written_of_path {name : String} {path : List String}
    (isOne : .name name path ∈ stage.event.ingredients) (present : path ≠ []) :
    path ⊆ query.writtenNames := by
  intro written isWritten
  refine List.mem_flatMap.mpr ⟨stage, isStage, List.mem_flatMap.mpr ⟨_, isOne, ?_⟩⟩
  obtain ⟨first, rest, rfl⟩ := List.exists_cons_of_ne_nil present
  exact isWritten

/-- A name of nothing known is written. -/
theorem written_of_unknown {settings : Settings} {P : Compiled → Prop} {progress : Progress}
    (sound : Sound settings P stage.known progress) {name : String}
    (isOne : .name name [] ∈ stage.event.ingredients) (unbound : progress.graph.slot? name = none)
    (unnamed : progress.bindings.find? name = none) : name ∈ query.writtenNames := by
  have unresolved : stage.known.resolves (.name name []) = false := by
    by_contra resolves
    exact sound.not_word (Bool.not_eq_false _ ▸ resolves) unbound unnamed
  refine List.mem_flatMap.mpr ⟨stage, isStage, List.mem_flatMap.mpr ⟨_, isOne, ?_⟩⟩
  simp [Names.written, unresolved]

theorem text_mem_writtenTexts {text : String}
    (isOne : .literal (.string text) ∈ stage.event.ingredients) : text ∈ query.writtenTexts :=
  List.mem_append_left _ (List.mem_append_left _
    (List.mem_flatMap.mpr ⟨stage, isStage, List.mem_filterMap.mpr ⟨_, isOne, rfl⟩⟩))

theorem labels_subset_writtenTexts {pattern : Pattern} (isPattern : pattern ∈ stage.event.patterns)
    (kind : SlotKind) : pattern.labels kind ⊆ query.writtenTexts := by
  intro label isLabel
  have there : label ∈ query.labels kind :=
    List.mem_flatMap.mpr ⟨stage.event, Query.event_mem_of_mem_stages isStage,
      List.mem_flatMap.mpr ⟨pattern, isPattern, isLabel⟩⟩
  cases kind with
  | node => exact List.mem_append_left _ (List.mem_append_right _ there)
  | relation => exact List.mem_append_right _ there

end

section

variable {settings : Settings} {query : Query} (plain : query.isPlain = true)

include plain

theorem isIdentifier_of_written {name : String} (isOne : name ∈ query.writtenNames) :
    isIdentifier name = true :=
  List.all_eq_true.mp (Bool.and_eq_true_iff.mp plain).1 name isOne

theorem quoteless_of_written {text : String} (isOne : text ∈ query.writtenTexts) :
    '\'' ∉ text.toList := by
  simpa using List.all_eq_true.mp (Bool.and_eq_true_iff.mp plain).2 text isOne

theorem accepts_plain {stage : Stage} (isStage : stage ∈ query.stages) {progress : Progress}
    (sound : Sound settings (Lexemes (Lexeme.IsPlain settings.tables)) stage.known progress) :
    Accepts progress.bindings progress.graph stage.event.ingredients
      (Lexeme.IsPlain settings.tables) where
  slot _ _ _ := ⟨rfl, List.cons_ne_nil _ _, List.forall_mem_singleton.mpr (by decide)⟩
  word name isOne unbound unnamed :=
    isIdentifier_of_written plain (written_of_unknown isStage sound isOne unbound unnamed)
  path name path isOne present row number :=
    ⟨number.1, present, fun written isWritten =>
      isIdentifier_of_written plain (written_of_path isStage isOne present isWritten)⟩
  text text isOne := by
    have quoteless := quoteless_of_written plain (text_mem_writtenTexts isStage isOne)
    constructor
    · rintro _ ⟨⟩
      exact quoteless
    · rintro operator _ ⟨⟩
      exact quoteless_likePattern quoteless operator
  test pattern embedding isOne isEmbedding := by
    rw [sound.settings]
    refine isPlain_subselect settings isEmbedding fun kind label isLabel => ?_
    have isPattern := tests_subset_patterns _ (mem_tests.mpr isOne)
    exact quoteless_of_written plain (labels_subset_writtenTexts isStage isPattern kind isLabel)

end

theorem accepts_avoids {settings : Settings} {query : Query}
    (unreserved : ∀ name ∈ query.writtenNames, isReserved name = false) {stage : Stage}
    (isStage : stage ∈ query.stages) {progress : Progress}
    (sound : Sound settings (Lexemes Lexeme.Avoids) stage.known progress) :
    Accepts progress.bindings progress.graph stage.event.ingredients Lexeme.Avoids where
  slot _ _ _ := List.forall_mem_singleton.mpr (by decide)
  word name isOne unbound unnamed :=
    unreserved name (written_of_unknown isStage sound isOne unbound unnamed)
  path name path isOne present row _ :=
    fun written isWritten => unreserved written (written_of_path isStage isOne present isWritten)
  text _ _ := ⟨trivial, fun _ => trivial⟩
  test _ _ _ _ := trivial

/-! ## Where expressions are put -/

/-- Under an `AND` stand single expressions, and the columns of rows. -/
theorem conjunct_phrases {progress next : Progress} {expression : Expression} {compiled : Compiled}
    (given : progress.bindings.Given)
    (compiles : progress.compile expression = .ok (compiled, next)) :
    ∃ phrases : List Sql.Phrase, phrases ≠ [] ∧
      compiled.conjunct = .joined .comma (phrases.map Sql.Phrase.fragment) := by
  cases isSlot : compiled.slot with
  | none =>
    obtain ⟨phrase, written⟩ := Progress.compile_single given compiles isSlot
    unfold Compiled.conjunct
    split
    · exact ⟨[phrase.group], List.cons_ne_nil _ _, by simp [Fragment.joined, Sql.Phrase.fragment,
        written, List.intercalate]⟩
    · exact ⟨[phrase], List.cons_ne_nil _ _, by simp [Fragment.joined, written, List.intercalate]⟩
  | some slot =>
    rw [Progress.compile_whole given compiles slot isSlot]
    refine ⟨(Sql.rowColumns slot.kind).map fun column => .operand (.field (.outer slot) [column]) rfl,
      ?_, ?_⟩
    · cases slot.kind <;> exact List.cons_ne_nil _ _
    · simp [Compiled.conjunct, Compiled.ofSlot, Function.comp_def, Sql.Phrase.fragment]

theorem Holds.phrase {kind : ResultKind} {columns : List Fragment} (holds : Holds kind columns)
    {fragment : Fragment} (isOne : fragment ∈ columns) :
    ∃ phrase : Sql.Phrase, phrase.fragment = fragment := by
  cases holds with
  | node index | relationship index =>
    obtain ⟨column, -, rfl⟩ := List.mem_map.mp isOne
    exact ⟨.operand (.field _ [column]) rfl, rfl⟩
  | scalar phrase =>
    obtain rfl := List.mem_singleton.mp isOne
    exact ⟨phrase, rfl⟩

/-- Functions are counts and powers. -/
theorem isName_of_function {phrase : Sql.Phrase} {name : String}
    (isOne : Lexeme.function name ∈ phrase.fragment) : IsName name := by
  induction phrase with
  | operand lexeme stands =>
    obtain rfl := List.mem_singleton.mp isOne
    contradiction
  | group inner ih =>
    refine ih ?_
    simpa [Sql.Phrase.fragment, Fragment.parenthesized] using isOne
  | count distinct argument ih =>
    have either : name = "COUNT" ∨ Lexeme.function name ∈ argument.fragment := by
      cases distinct <;> simpa [Sql.Phrase.fragment] using isOne
    rcases either with rfl | inside
    · exact ⟨by decide, by decide⟩
    · exact ih inside
  | power base exponent ihBase ihExponent =>
    have either : name = "POWER" ∨ Lexeme.function name ∈ base.fragment ∨
        Lexeme.function name ∈ exponent.fragment := by
      simpa [Sql.Phrase.fragment] using isOne
    rcases either with rfl | inBase | inExponent
    · exact ⟨by decide, by decide⟩
    · exact ihBase inBase
    · exact ihExponent inExponent
  | unary operator inner ih =>
    refine ih ?_
    cases operator <;> simpa [Sql.Phrase.fragment, Sql.Unary.lexeme] using isOne
  | binary operator left right ihLeft ihRight =>
    have either : Lexeme.function name ∈ left.fragment ∨ Lexeme.function name ∈ right.fragment := by
      cases operator <;> simpa [Sql.Phrase.fragment, Sql.Binary.lexeme] using isOne
    rcases either with inLeft | inRight
    · exact ihLeft inLeft
    · exact ihRight inRight

theorem columnName_of_mem_columnsOf {item : ProjectionItem} {compiled : Compiled}
    {column : Sql.Column} (isOne : column ∈ (Layout.columnsOf item compiled).1) {name : String}
    (isName : column.name = some name) : Layout.columnName item = some name := by
  unfold Layout.columnsOf at isOne
  dsimp only at isOne
  split at isOne
  · obtain rfl := List.mem_singleton.mp isOne
    exact isName
  · split at isOne
    · obtain rfl := List.mem_singleton.mp isOne
      exact isName
    · split at isOne
      · obtain rfl := List.mem_singleton.mp isOne
        exact isName
      · obtain ⟨fragment, _, rfl⟩ := List.mem_map.mp isOne
        contradiction

section

variable {settings : Settings} {query : Query} {final : Draft}
  (run : Run (.start settings) query.events final)

include run

theorem Run.fragment_phrases {fragment : Fragment}
    (isOne : fragment ∈ final.progress.predicates.fragments) :
    ∃ phrases : List Sql.Phrase, phrases ≠ [] ∧
      fragment = .joined .comma (phrases.map Sql.Phrase.fragment) := by
  obtain ⟨stage, _, before, after, predicate, compiled, next, passed, _, compiles, rfl⟩ :=
    run.predicate_origin (fun stage _ => upholds_true stage) isOne
  exact conjunct_phrases passed.sound.compiled compiles

/-- A column is a single expression, and its name is that of an item. -/
theorem Run.column_phrase {column : Sql.Column} (isOne : column ∈ final.layout.columns) :
    (∃ phrase : Sql.Phrase, phrase.fragment = column.value) ∧
      ∀ name ∈ column.name, name ∈ query.returnClause.items.filterMap Layout.columnName := by
  obtain ⟨stage, isStage, before, after, item, compiled, next, passed, isItem, compiles, isColumn⟩ :=
    run.item_origin (fun stage _ => upholds_true stage) isOne
  have given := passed.sound.compiled
  have holds := columnsOf_holds (Progress.compile_laid given compiles)
    (Progress.compile_single given compiles) item
  refine ⟨holds.phrase (List.mem_map_of_mem isColumn), fun name isName => ?_⟩
  have there := isItem ▸ Query.event_mem_of_mem_stages isStage
  have isReturned : item ∈ query.returnClause.items := by
    simpa [Query.events, MatchClause.events, WithClause.events] using there
  exact List.mem_filterMap.mpr ⟨item, isReturned, columnName_of_mem_columnsOf isColumn isName⟩

/-- The labels of the graph of a plain query hold no quotes. -/
theorem Run.quoteless (plain : query.isPlain = true) :
    Quoteless final.progress.graph.allLabels := by
  intro kind label isLabel
  rcases run.labels_origin isLabel with early | ⟨event, isEvent, pattern, isPattern, inPattern⟩
  · cases kind <;> contradiction
  · obtain ⟨stage, isStage, rfl⟩ := Query.exists_mem_stages isEvent
    exact quoteless_of_written plain (labels_subset_writtenTexts isStage isPattern kind inPattern)

end

end Compilation

/-! ## Clear queries -/

/-- A column of a plain query is a single expression with plain operands. -/
theorem Cypher.Query.columns_plain {settings : Settings} {query : Query}
    {selection : Sql.Selection} {projections : List Projection}
    (selected : query.selection settings = .ok (selection, projections))
    (plain : query.isPlain = true) : ∀ column ∈ selection.columns, ∃ phrase : Sql.Phrase,
      phrase.fragment = column.value ∧
        ∀ lexeme ∈ phrase.fragment, lexeme.IsPlain settings.tables := by
  obtain ⟨progress, final, page, progressed, same, run, known, rfl⟩ := Query.run_ok selected
  obtain ⟨-, plainColumns⟩ := run.draft_lexemes (plain_ofRows settings.tables)
    fun stage isStage draft sound _ => accepts_plain plain isStage sound
  intro column isColumn
  obtain ⟨⟨phrase, written⟩, -⟩ := run.column_phrase isColumn
  exact ⟨phrase, written, fun lexeme isOne => plainColumns column isColumn lexeme (written ▸ isOne)⟩

/-- With plain names and texts, and no name that is a keyword of a `SELECT`, all parts of the SQL of
a query are clear. -/
theorem Cypher.Query.selection_clear {settings : Settings} {query : Query}
    {selection : Sql.Selection} {projections : List Projection}
    (selected : query.selection settings = .ok (selection, projections))
    (plain : query.isPlain = true) (unreserved : query.isUnreserved = true) :
    selection.IsClear settings.tables := by
  obtain ⟨progress, final, page, progressed, same, run, known, rfl⟩ := Query.run_ok selected
  have free : ∀ name ∈ query.writtenNames ++ query.returnClause.items.filterMap Layout.columnName,
      isReserved name = false := by
    simpa using List.all_eq_true.mp unreserved
  obtain ⟨plainFragments, plainColumns⟩ := run.draft_lexemes (plain_ofRows settings.tables)
    fun stage isStage draft sound _ => accepts_plain plain isStage sound
  obtain ⟨freeFragments, freeColumns⟩ := run.draft_lexemes avoids_ofRows
    fun stage isStage draft sound _ =>
      accepts_avoids (List.forall_mem_append.mp free).1 isStage sound
  constructor
  case columns =>
    intro column isColumn
    obtain ⟨phrase, named⟩ := run.column_phrase isColumn
    refine ⟨⟨phrase, plainColumns column isColumn, freeColumns column isColumn⟩, ?_⟩
    intro name isName
    obtain ⟨item, isItem, isColumnName⟩ := List.mem_filterMap.mp (named name isName)
    exact ⟨(Option.mem_filter_iff.mp isColumnName).2, (List.forall_mem_append.mp free).2 name
      (named name isName)⟩
  case functions =>
    intro column isColumn aggregate isAggregate
    obtain ⟨⟨phrase, written⟩, -⟩ := run.column_phrase isColumn
    have inside : Lexeme.function aggregate.name ∈ phrase.fragment := by
      rw [written, Sql.Column.value, Option.mem_def.mp isAggregate]
      exact List.mem_cons_self
    exact isName_of_function inside
  case sources =>
    refine ⟨patternTables settings final.progress.graph, ?_, arePlain_patternTables settings _⟩
    rw [patternTables, sourcesOf, List.map_append, List.map_map, List.map_map]
    rfl
  case joins => rfl
  case leaves =>
    rw [leaves_filterOf]
    refine List.forall_mem_append.mpr ⟨List.forall_mem_map.mpr fun test isTest => ?_,
      List.forall_mem_map.mpr fun fragment isFragment => ?_⟩
    · exact isPlain_of_mem_shapeTests (run.quoteless plain) isTest
    · exact ⟨fun lexeme isOne => ⟨plainFragments fragment isFragment lexeme isOne,
        freeFragments fragment isFragment lexeme isOne⟩, run.fragment_phrases isFragment⟩

/-- Names and texts are plain, no name is a keyword of a `SELECT`, those of the tables included, and
no comment begins in the SQL. -/
structure Cypher.Query.IsClear (settings : Settings) (query : Query) (compiled : CompiledQuery) :
    Prop where
  plain : query.isPlain = true
  unreserved : query.isUnreserved = true
  tables : ∀ kind, IsName (settings.table kind)
  uncommented : Sql.hasComment compiled.sql = false

/-- The SQL of a clear query is read as the statement that it is the text of. -/
theorem Cypher.Query.compile_reads {settings : Settings} {query : Query} {compiled : CompiledQuery}
    (compiles : query.compile settings = .ok compiled) (clear : query.IsClear settings compiled) :
    ∃ row, Sql.tokens compiled.sql = some row ∧ compiled.statement.Reads settings.tables row := by
  obtain ⟨selection, selected, assembles⟩ := Query.compile_ok compiles
  have areNames : ∀ table ∈ settings.tables, IsName table :=
    List.forall_mem_cons.mpr ⟨clear.tables .node, List.forall_mem_singleton.mpr (clear.tables .relation)⟩
  have areIdentifiers := fun table isOne => (areNames table isOne).identifier
  have clearStatement := Sql.Selection.assemble_clear areIdentifiers
    (Query.selection_clear selected clear.plain clear.unreserved) assembles
  obtain ⟨row, scans, reads⟩ := Statement.scans areIdentifiers
    (fun table isOne => (areNames table isOne).unreserved) clearStatement
  exact ⟨row, scans.tokens_eq clear.uncommented, reads⟩

end CypherSql
