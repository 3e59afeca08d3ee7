import CypherSql.Proofs.Compilation.Building
import CypherSql.Proofs.Compilation.Columns

/-! # Where the lexemes of compiled expressions come from

* `Whole` — what is a slot is nothing else.
* `NameMeans` — all that a name can be written as.
* `Progress.compile_builds` — an expression compiles to what its ingredients build.
* `Accepts` — a property of lexemes that the ingredients of an expression give.
* `Progress.compile_lexemes` — then all of its lexemes have it, `conjunct_lexemes` and
  `column_lexemes` in the places where the expression is put.
* `Progress.compile_test_mem` — every pattern of an expression is tested for.
* `Progress.compile_aggregates_iff` — an expression aggregates where an ingredient does.
-/

namespace CypherSql.Compilation

open CypherSql.Cypher
open CypherSql.Graph (Slot)
open CypherSql.Sql (Column Fragment Lexeme Subselect rowColumns)

/-! ## Slots -/

def Whole (compiled : Compiled) : Prop :=
  ∀ slot, compiled.slot = some slot → compiled = .ofSlot slot

theorem made_whole (settings : Settings) : Made ⟨settings, []⟩ Whole where
  scalar _ := nofun
  parts _ _ _ := nofun
  disjunction _ _ := nofun
  slot := by
    rintro slot other ⟨⟩
    rfl
  property _ _ := nofun
  aggregate _ _ _ _ := nofun
  reading _ _ := nofun
  named := List.forall_mem_nil _

theorem operand_ofSlot (slot : Slot) :
    (Compiled.ofSlot slot).operand = [.field (.outer slot) ["id"]] := by
  obtain ⟨kind, index⟩ := slot
  cases kind <;> rfl

/-! ## Names -/

/-- All that a name with the properties taken from it can be written as. -/
inductive NameMeans (bindings : Bindings) (graph : Graph) (name : String) :
    List String → Written → Prop where
  | slot {slot : Slot} (path : List String) (bound : graph.slot? name = some slot) :
      NameMeans bindings graph name path (.ofSlot slot path)
  | given {compiled : Compiled} {written : Written} (unbound : graph.slot? name = none)
      (found : bindings.find? name = some compiled) (stands : Represents compiled written) :
      NameMeans bindings graph name [] written
  | property {compiled : Compiled} {slot : Slot} {path : List String}
      (unbound : graph.slot? name = none) (found : bindings.find? name = some compiled)
      (isSlot : compiled.slot = some slot) (present : path ≠ []) :
      NameMeans bindings graph name path (.ofSlot slot path)
  | word (unbound : graph.slot? name = none) (unnamed : bindings.find? name = none) :
      NameMeans bindings graph name [] (.ofParts (.operand (.word name) rfl) [])

theorem eq_none_of_rel {α β : Type} {R : α → β → Prop} {value : Option α}
    (related : Option.Rel R value none) : value = none := by
  cases related
  rfl

theorem exists_of_rel {α β : Type} {R : α → β → Prop} {value : Option α} {expected : β}
    (related : Option.Rel R value (some expected)) :
    ∃ found, value = some found ∧ R found expected := by
  cases related with
  | some holds => exact ⟨_, rfl, holds⟩

variable {bindings : Bindings} {graph : Graph} {meaning : String → Option Written}

theorem Meanings.nameMeans (meanings : Meanings bindings meaning) {settings : Settings}
    {whole : Bool} {name : String} {path : List String} {written : Written}
    (means : (Lexicon.meaning settings graph meaning).name? whole name path = some written) :
    NameMeans bindings graph name path written := by
  have stands := meanings.represents name
  dsimp only [Lexicon.meaning] at means
  cases bound : graph.slot? name with
  | some slot =>
    rw [bound] at means
    obtain rfl := Option.some.inj means
    exact .slot path bound
  | none =>
    cases isGiven : meaning name with
    | none =>
      simp only [bound, isGiven] at means stands
      split at means
      · next empty =>
        obtain rfl := Option.some.inj means
        obtain rfl : path = [] := by simpa using empty
        exact .word bound (eq_none_of_rel stands)
      · contradiction
    | some value =>
      simp only [bound, isGiven] at means stands
      obtain ⟨compiled, found, stands⟩ := exists_of_rel stands
      split at means
      · next empty =>
        obtain rfl := Option.some.inj means
        obtain rfl : path = [] := by simpa using empty
        exact .given bound found stands
      · next present =>
        obtain ⟨slot, isSlot, rfl⟩ := Option.map_eq_some_iff.mp means
        exact .property bound found (stands.slot.trans isSlot) (by simpa using present)

/-! ## Expressions -/

variable {expression : Expression} {compiled : Compiled}

/-- Whatever the names that are given are written as, the ingredients of an expression build what it
compiles to. -/
theorem compile_builds (meanings : Meanings bindings meaning) {state : CompilerState}
    (compiles : ((compile bindings expression).run.run state).1 = .ok compiled) :
    ∃ written, (Lexicon.meaning bindings.settings state.graph meaning).Builds
        expression.ingredients written ∧ Represents compiled written := by
  have outcome := (compile_writes (spells_meaning rfl meanings.represents) expression state rfl).1
  rw [compiles] at outcome
  generalize isWritten : Lexicon.write _ expression = result at outcome
  cases outcome with
  | @value _ written stands => exact ⟨written, Lexicon.write_builds _ _ isWritten, stands⟩

variable {progress next : Progress}

theorem Progress.compile_whole (given : progress.bindings.Given)
    (compiles : progress.compile expression = .ok (compiled, next)) : Whole compiled :=
  Progress.compile_holds (given.made (made_whole progress.bindings.settings)) compiles

theorem Progress.compile_laid (given : progress.bindings.Given)
    (compiles : progress.compile expression = .ok (compiled, next)) : Laid compiled :=
  Progress.compile_holds (given.made (made_laid progress.bindings.settings)) compiles

theorem Progress.compile_builds (meanings : Meanings progress.bindings meaning)
    (compiles : progress.compile expression = .ok (compiled, next)) :
    ∃ written, (Lexicon.meaning progress.bindings.settings progress.graph meaning).Builds
        expression.ingredients written ∧ Represents compiled written := by
  obtain ⟨state, ran, -⟩ := Progress.compile_run compiles
  exact Compilation.compile_builds meanings (congrArg Prod.fst ran)

/-! ## Lexemes -/

/-- A property of lexemes that all columns of a row have where its number has it, and that lexemes
without a name, a text or a pattern have anyway. -/
structure OfRows (Q : Lexeme → Prop) : Prop where
  fixed : ∀ lexeme, Lexicon.isFixed lexeme = true → Q lexeme
  column : ∀ row kind, ∀ column ∈ rowColumns kind, Q (.field row ["id"]) → Q (.field row [column])

/-- The ingredients have the property in a graph, given that what names were given to has it. -/
structure Accepts (bindings : Bindings) (graph : Graph) (parts : List Ingredient)
    (Q : Lexeme → Prop) : Prop where
  slot : ∀ name slot, graph.slot? name = some slot → Q (.field (.outer slot) ["id"])
  word : ∀ name, .name name [] ∈ parts → graph.slot? name = none → bindings.find? name = none →
    Q (.word name)
  path : ∀ name path, .name name path ∈ parts → path ≠ [] →
    ∀ row, Q (.field row ["id"]) → Q (.field row path)
  text : ∀ text, .literal (.string text) ∈ parts → Q (.literal (.string text)) ∧
    ∀ operator, Q (.literal (.string (likePattern operator text)))
  test : ∀ pattern embedding, .pattern pattern ∈ parts → embeds graph pattern = some embedding →
    Q (.existing (embedding.subselect bindings.settings))

def Lexemes (Q : Lexeme → Prop) (compiled : Compiled) : Prop :=
  ∀ lexeme ∈ compiled.operand, Q lexeme

section

variable {parts : List Ingredient} {Q : Lexeme → Prop}

theorem lexemes_ofSlot {slot : Slot} (whole : Q (.field (.outer slot) ["id"])) {path : List String}
    (behind : path ≠ [] → Q (.field (.outer slot) path)) :
    ∀ lexeme ∈ (Written.ofSlot slot path).phrase.fragment, Q lexeme := by
  unfold Written.ofSlot
  split
  · exact List.forall_mem_singleton.mpr whole
  · next present => exact List.forall_mem_singleton.mpr (behind (by simpa using present))

/-- What the ingredients give, they give in the lexicon of the query. -/
theorem Accepts.admits (accepts : Accepts bindings graph parts Q) (ofRows : OfRows Q)
    (given : bindings.Given) (meanings : Meanings bindings meaning)
    (named : ∀ name compiled, bindings.find? name = some compiled → Lexemes Q compiled) :
    (Lexicon.meaning bindings.settings graph meaning).Admits parts Q where
  fixed := ofRows.fixed
  name whole name path written isOne means := by
    cases meanings.nameMeans means with
    | slot _ bound =>
      have whole := accepts.slot name _ bound
      exact lexemes_ofSlot whole fun present => accepts.path name path isOne present _ whole
    | given unbound found stands =>
      have lexemes := named name _ found
      rw [Lexemes, stands.operand] at lexemes
      exact lexemes
    | @property compiled slot _ unbound found isSlot present =>
      have lexemes := named name compiled found
      have laid := (given.made (made_laid bindings.settings)).find? found
      rw [Lexemes, laid.operand isSlot] at lexemes
      have whole := List.forall_mem_singleton.mp lexemes
      exact lexemes_ofSlot whole fun present => accepts.path name path isOne present _ whole
    | word unbound unnamed =>
      exact List.forall_mem_singleton.mpr (accepts.word name isOne unbound unnamed)
  text := accepts.text
  test pattern sub isOne means := by
    obtain ⟨embedding, isEmbedding, rfl⟩ := Option.map_eq_some_iff.mp means
    exact accepts.test pattern embedding isOne isEmbedding

end

section

variable {Q : Lexeme → Prop} (ofRows : OfRows Q)

include ofRows

/-- All lexemes of an expression have a property that its ingredients give. -/
theorem Progress.compile_lexemes (given : progress.bindings.Given)
    (named : ∀ name compiled, progress.bindings.find? name = some compiled → Lexemes Q compiled)
    (accepts : Accepts progress.bindings progress.graph expression.ingredients Q)
    (compiles : progress.compile expression = .ok (compiled, next)) : Lexemes Q compiled := by
  obtain ⟨meaning, meanings⟩ := given.meanings
  obtain ⟨written, builds, stands⟩ := Progress.compile_builds meanings compiles
  rw [Lexemes, stands.operand]
  exact builds.lexemes (accepts.admits ofRows given meanings named)

omit ofRows in
theorem forall_mem_joined {separator : Lexeme} {parts : List Fragment} (isSeparator : Q separator)
    (each : ∀ part ∈ parts, ∀ lexeme ∈ part, Q lexeme) :
    ∀ lexeme ∈ Fragment.joined separator parts, Q lexeme := by
  cases parts with
  | nil => exact List.forall_mem_nil _
  | cons first rest =>
    obtain ⟨ofFirst, ofRest⟩ := List.forall_mem_cons.mp each
    rw [Fragment.joined_cons, List.forall_mem_append, List.forall_mem_flatMap]
    exact ⟨ofFirst, fun part isPart => List.forall_mem_cons.mpr ⟨isSeparator, ofRest part isPart⟩⟩

/-- What the property says of the number of a slot, it says of the columns of its row. -/
theorem columns_ofSlot {slot : Slot} (lexemes : Lexemes Q (.ofSlot slot)) :
    ∀ column ∈ (Compiled.ofSlot slot).columns, ∀ lexeme ∈ column, Q lexeme := by
  rw [Lexemes, operand_ofSlot] at lexemes
  have number := List.forall_mem_singleton.mp lexemes
  exact List.forall_mem_map.mpr fun column isColumn =>
    List.forall_mem_singleton.mpr (ofRows.column _ slot.kind column isColumn number)

theorem sql_lexemes (whole : Whole compiled) (lexemes : Lexemes Q compiled) :
    ∀ lexeme ∈ compiled.sql, Q lexeme := by
  cases isSlot : compiled.slot with
  | none => exact operand_of_slot_none isSlot ▸ lexemes
  | some slot =>
    rw [whole slot isSlot] at lexemes ⊢
    exact forall_mem_joined (ofRows.fixed _ rfl) (columns_ofSlot ofRows lexemes)

theorem conjunct_lexemes (whole : Whole compiled) (lexemes : Lexemes Q compiled) :
    ∀ lexeme ∈ compiled.conjunct, Q lexeme := by
  have ofSql := sql_lexemes ofRows whole lexemes
  unfold Compiled.conjunct
  split
  · refine List.forall_mem_cons.mpr ⟨ofRows.fixed _ rfl, List.forall_mem_append.mpr ⟨ofSql, ?_⟩⟩
    exact List.forall_mem_singleton.mpr (ofRows.fixed _ rfl)
  · exact ofSql

theorem column_lexemes (whole : Whole compiled) (laid : Laid compiled)
    (lexemes : Lexemes Q compiled) {item : ProjectionItem} {column : Column}
    (isOne : column ∈ (Layout.columnsOf item compiled).1) : ∀ lexeme ∈ column.value, Q lexeme := by
  have ofSql := sql_lexemes ofRows whole lexemes
  have ofColumns : ∀ fragment ∈ compiled.columns, ∀ lexeme ∈ fragment, Q lexeme := by
    cases isSlot : compiled.slot with
    | none =>
      rw [(laid.value isSlot).2]
      exact List.forall_mem_singleton.mpr ofSql
    | some slot =>
      rw [whole slot isSlot] at lexemes ⊢
      exact columns_ofSlot ofRows lexemes
  unfold Layout.columnsOf at isOne
  cases isAggregate : compiled.aggregate with
  | some aggregate =>
    simp only [isAggregate, List.mem_singleton] at isOne
    subst isOne
    rw [laid.aggregate aggregate.1 aggregate.2 isAggregate] at ofSql
    exact ofSql
  | none =>
    simp only [isAggregate] at isOne
    split at isOne
    · obtain rfl := List.mem_singleton.mp isOne
      exact ofSql
    · split at isOne
      · next fragment isColumns =>
        obtain rfl := List.mem_singleton.mp isOne
        exact ofColumns fragment (by simp [isColumns])
      · obtain ⟨fragment, isColumn, rfl⟩ := List.mem_map.mp isOne
        exact ofColumns fragment isColumn

end

/-! ## Tests for patterns -/

/-- Every pattern of an expression is looked for. -/
theorem Progress.compile_test_mem (given : progress.bindings.Given)
    (compiles : progress.compile expression = .ok (compiled, next)) {pattern : Pattern}
    (isOne : .pattern pattern ∈ expression.ingredients) :
    ∃ embedding, embeds progress.graph pattern = some embedding ∧
      .existing (embedding.subselect progress.bindings.settings) ∈ compiled.operand := by
  obtain ⟨meaning, meanings⟩ := given.meanings
  obtain ⟨written, builds, stands⟩ := Progress.compile_builds meanings compiles
  obtain ⟨sub, means, there⟩ := builds.test_mem isOne
  obtain ⟨embedding, isEmbedding, rfl⟩ := Option.map_eq_some_iff.mp means
  exact ⟨embedding, isEmbedding, stands.operand ▸ there⟩

/-- What tests for a pattern is no slot. -/
theorem slot_eq_none_of_test (whole : Whole compiled) {sub : Subselect}
    (isOne : .existing sub ∈ compiled.operand) : compiled.slot = none := by
  cases isSlot : compiled.slot with
  | none => rfl
  | some slot =>
    rw [whole slot isSlot, operand_ofSlot] at isOne
    simp at isOne

theorem mem_conjunct (whole : Whole compiled) {sub : Subselect}
    (isOne : .existing sub ∈ compiled.operand) : .existing sub ∈ compiled.conjunct := by
  rw [operand_of_slot_none (slot_eq_none_of_test whole isOne)] at isOne
  unfold Compiled.conjunct
  split
  · exact List.mem_cons_of_mem _ (List.mem_append_left _ isOne)
  · exact isOne

/-- A test is in the column of its item. -/
theorem exists_mem_columnsOf (whole : Whole compiled) (laid : Laid compiled)
    (item : ProjectionItem) {sub : Subselect} (isOne : .existing sub ∈ compiled.operand) :
    ∃ column ∈ (Layout.columnsOf item compiled).1, .existing sub ∈ column.value := by
  have value := slot_eq_none_of_test whole isOne
  rw [operand_of_slot_none value] at isOne
  unfold Layout.columnsOf
  cases isAggregate : compiled.aggregate with
  | some aggregate =>
    refine ⟨_, List.mem_singleton_self _, ?_⟩
    rw [laid.aggregate aggregate.1 aggregate.2 isAggregate] at isOne
    exact isOne
  | none =>
    simp only [(laid.value value).2]
    split <;> exact ⟨_, List.mem_singleton_self _, isOne⟩

/-! ## Aggregates -/

theorem not_counts_ofSlot (slot : Slot) (path : List String) :
    ¬Lexicon.Counts (Written.ofSlot slot path).phrase.fragment := by
  unfold Written.ofSlot
  split <;> exact Lexicon.not_counts_of_operand rfl

theorem aggregates_ofSlot (slot : Slot) (path : List String) :
    (Written.ofSlot slot path).aggregates = false := by
  unfold Written.ofSlot
  split <;> rfl

/-- Whether an aggregate occurs is known of every name that is given. -/
def Candid (bindings : Bindings) : Prop :=
  ∀ name compiled, bindings.find? name = some compiled →
    (Lexicon.Counts compiled.operand ↔ compiled.aggregates = true)

theorem NameMeans.counts_iff (candid : Candid bindings) {name : String} {path : List String}
    {written : Written} (means : NameMeans bindings graph name path written) :
    Lexicon.Counts written.phrase.fragment ↔ written.aggregates = true := by
  cases means with
  | slot | property =>
    exact iff_of_false (not_counts_ofSlot _ _) (by simp [aggregates_ofSlot])
  | given _ found stands =>
    rw [← stands.operand, ← stands.aggregates]
    exact candid name _ found
  | word => exact iff_of_false (Lexicon.not_counts_of_operand rfl) (by simp [Written.ofParts])

theorem compile_counts_iff (candid : Candid bindings) (given : bindings.Given)
    {state : CompilerState}
    (compiles : ((compile bindings expression).run.run state).1 = .ok compiled) :
    Lexicon.Counts compiled.operand ↔ compiled.aggregates = true := by
  obtain ⟨meaning, meanings⟩ := given.meanings
  obtain ⟨written, builds, stands⟩ := compile_builds meanings compiles
  rw [stands.operand, stands.aggregates]
  exact builds.counts_iff fun _ _ _ _ means => (meanings.nameMeans means).counts_iff candid

theorem Bindings.Given.candid (given : bindings.Given) : Candid bindings := by
  induction given with
  | none => exact fun _ _ isFound => nomatch isFound
  | bind given compiles name ih =>
    intro other found isFound
    rw [Bindings.find?_bind] at isFound
    split at isFound
    · obtain rfl := Option.some.inj isFound
      exact compile_counts_iff ih given compiles
    · exact ih other found isFound

/-- An aggregate is written exactly where the record of the expression says so. -/
theorem Progress.compile_counts_iff (given : progress.bindings.Given)
    (compiles : progress.compile expression = .ok (compiled, next)) :
    Lexicon.Counts compiled.operand ↔ compiled.aggregates = true := by
  obtain ⟨state, ran, -⟩ := Progress.compile_run compiles
  exact Compilation.compile_counts_iff given.candid given (congrArg Prod.fst ran)

/-- Where no name is given to anything, an expression aggregates where an ingredient does. -/
theorem Progress.compile_aggregates_iff (unnamed : ∀ name, progress.bindings.find? name = none)
    (given : progress.bindings.Given)
    (compiles : progress.compile expression = .ok (compiled, next)) :
    compiled.aggregates = true ↔
      ∃ ingredient ∈ expression.ingredients, ingredient.aggregates = true := by
  obtain ⟨meaning, meanings⟩ := given.meanings
  obtain ⟨written, builds, stands⟩ := Progress.compile_builds meanings compiles
  rw [stands.aggregates]
  apply builds.aggregates_iff
  intro whole name path written means
  cases meanings.nameMeans means with
  | slot => exact aggregates_ofSlot _ _
  | given _ found | property _ found => nomatch (unnamed name).symm.trans found
  | word => rfl

end CypherSql.Compilation
