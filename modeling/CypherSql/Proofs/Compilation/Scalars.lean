import CypherSql.Proofs.Compilation.Gathering
import CypherSql.Proofs.Compilation.Variables
import CypherSql.Proofs.Sql.Readings

/-! # Where a whole slot stands for one value

A list of columns is no expression of SQL, so wherever one expression is asked for, a slot has to
stand for its number, or for its rows where they are counted.

* `Scalar` — a fragment is one expression of SQL.
* `Contributes` — the operands that an ingredient gives to an expression.
* `StarsCounted` — rows are counted, and nothing else is done with them.
* `Composed` — what an expression compiles to is one expression, whose operands come from its
  ingredients one after the other.
* `Query.scalars_iff` — all columns and keys of a `SELECT` are single expressions, and so are its
  predicates exactly where none of them is a whole slot.
-/

namespace CypherSql

open CypherSql.Cypher
open CypherSql.Graph (Slot)
open CypherSql.Sql (Branch Column Fragment Leaf Lexeme Phrase Statement)

namespace Compilation

/-! ## Single expressions -/

def Scalar (fragment : Fragment) : Prop :=
  ∃ phrase : Phrase, phrase.fragment = fragment

/-- A comma stands between brackets only. -/
theorem not_scalar_of_comma {fragment : Fragment} (isOne : .comma ∈ fragment.outside 0) :
    ¬Scalar fragment := by
  rintro ⟨phrase, rfl⟩
  exact absurd (Phrase.one_le_level_of_mem_outside isOne) (by decide)

theorem not_scalar_ofSlot (slot : Slot) : ¬Scalar (Compiled.ofSlot slot).sql := by
  apply not_scalar_of_comma
  obtain ⟨kind, index⟩ := slot
  cases kind <;>
    simp [Compiled.ofSlot, Fragment.joined_cons, Sql.rowColumns, Fragment.outside, Lexeme.turn]

theorem scalar_operand (lexeme : Lexeme) (stands : lexeme.isOperand = true) : Scalar [lexeme] :=
  ⟨.operand lexeme stands, rfl⟩

/-! ## Operands -/

/-- The operands that an ingredient gives to an expression.  A whole slot gives one operand, its
number, or the `*` of a count. -/
inductive Contributes (progress : Progress) : Ingredient → Fragment → Prop where
  | whole {name : String} {slot : Slot} (denotes : progress.Denotes name slot) {operand : Lexeme}
      (single : operand = .field (.outer slot) ["id"] ∨ operand = .star) :
      Contributes progress (.name name []) [operand]
  | property {name : String} {slot : Slot} {path : List String}
      (denotes : progress.Denotes name slot) (present : path ≠ []) :
      Contributes progress (.name name path) [.field (.outer slot) path]
  | given {name : String} {compiled : Compiled} (unbound : progress.graph.slot? name = none)
      (found : progress.bindings.find? name = some compiled) (value : compiled.slot = none) :
      Contributes progress (.name name []) (compiled.sql.filter Lexeme.isOperand)
  | word {name : String} (unbound : progress.graph.slot? name = none)
      (unnamed : progress.bindings.find? name = none) :
      Contributes progress (.name name []) [.word name]
  | literal (value : Literal) : Contributes progress (.literal value) [.literal value]
  | text (operator : StringOperator) (text : String) :
      Contributes progress (.literal (.string text))
        [.literal (.string (likePattern operator text))]
  | call (function : String) : Contributes progress (.call function) []
  | countAll : Contributes progress .countAll [.star]
  | test {pattern : Pattern} {embedding : Embedding}
      (isEmbedding : embeds progress.graph pattern = some embedding) :
      Contributes progress (.pattern pattern)
        [.existing (embedding.subselect progress.bindings.settings)]

/-- The ingredients give these operands, one ingredient after the other. -/
def Supplies (progress : Progress) (parts : List Ingredient) (operands : Fragment) : Prop :=
  ∃ groups, List.Forall₂ (Contributes progress) parts groups ∧ operands = groups.flatten

section

variable {progress : Progress} {parts more : List Ingredient} {operands others : Fragment}

theorem Supplies.one {ingredient : Ingredient} (contributes : Contributes progress ingredient operands) :
    Supplies progress [ingredient] operands :=
  ⟨[operands], .cons contributes .nil, (List.append_nil operands).symm⟩

theorem Supplies.append (supplies : Supplies progress parts operands)
    (suppliesMore : Supplies progress more others) :
    Supplies progress (parts ++ more) (operands ++ others) := by
  obtain ⟨groups, each, rfl⟩ := supplies
  obtain ⟨groupsMore, eachMore, rfl⟩ := suppliesMore
  exact ⟨groups ++ groupsMore, List.rel_append each eachMore, List.flatten_append.symm⟩

theorem Supplies.call (supplies : Supplies progress parts operands) (function : String) :
    Supplies progress (.call function :: parts) operands :=
  (Supplies.one (.call function)).append supplies

theorem filter_cons_of_not {lexeme : Lexeme} (other : lexeme.isOperand = false) (rest : Fragment) :
    (lexeme :: rest).filter Lexeme.isOperand = rest.filter Lexeme.isOperand := by
  rw [List.filter_cons_of_neg (by simp [other])]

theorem isOperand_binary (operator : Sql.Binary) : operator.lexeme.isOperand = false := by
  cases operator <;> rfl

theorem isOperand_unary (operator : Sql.Unary) : operator.lexeme.isOperand = false := by
  cases operator <;> rfl

theorem supplies_ofSlot {name : String} {slot : Slot} (denotes : progress.Denotes name slot)
    (path : List String) : Supplies progress [.name name path]
      ((Written.ofSlot slot path).phrase.fragment.filter Lexeme.isOperand) := by
  unfold Written.ofSlot
  split
  · next empty =>
    obtain rfl : path = [] := by simpa using empty
    exact .one (.whole denotes (.inl rfl))
  · next present => exact .one (.property denotes (by simpa using present))

theorem NameMeans.supplies (given : progress.bindings.Given) {name : String} {path : List String}
    {written : Written} (means : NameMeans progress.bindings progress.graph name path written) :
    Supplies progress [.name name path] (written.phrase.fragment.filter Lexeme.isOperand) := by
  have whole {compiled : Compiled} (found : progress.bindings.find? name = some compiled) :
      Whole compiled :=
    (given.made (made_whole progress.bindings.settings)).find? found
  cases means with
  | slot path bound => exact supplies_ofSlot (Progress.denotes_iff.mpr (.inl bound)) path
  | @given compiled _ unbound found stands =>
    rw [← stands.operand]
    cases isSlot : compiled.slot with
    | none =>
      rw [operand_of_slot_none isSlot]
      exact .one (.given unbound found isSlot)
    | some slot =>
      obtain rfl := whole found slot isSlot
      rw [operand_ofSlot]
      exact .one (.whole (Progress.denotes_iff.mpr (.inr ⟨unbound, found⟩)) (.inl rfl))
  | property unbound found isSlot =>
    obtain rfl := whole found _ isSlot
    exact supplies_ofSlot (Progress.denotes_iff.mpr (.inr ⟨unbound, found⟩)) path
  | word unbound unnamed => exact .one (.word unbound unnamed)

variable {meaning : String → Option Written}

theorem Lexicon.Builds.supplies (given : progress.bindings.Given)
    (meanings : Meanings progress.bindings meaning) {written : Written}
    (builds : (Lexicon.meaning progress.bindings.settings progress.graph meaning).Builds parts
      written) :
    Supplies progress parts (written.phrase.fragment.filter Lexeme.isOperand) := by
  induction builds with
  | name means => exact (meanings.nameMeans means).supplies given
  | literal value => exact .one (.literal value)
  | countAll => exact .one .countAll
  | test means =>
    obtain ⟨embedding, isEmbedding, rfl⟩ := Option.map_eq_some_iff.mp means
    exact .one (.test isEmbedding)
  | @counted function parts argument distinct _ _ builds ih =>
    refine Supplies.call ?_ function
    cases isSlot : argument.slot with
    | none =>
      cases distinct <;>
        simpa [Written.counted, isSlot, Phrase.fragment, Lexeme.isOperand] using ih
    | some slot =>
      cases distinct with
      | true => simpa [Written.counted, isSlot, Phrase.fragment, Lexeme.isOperand] using ih
      | false =>
        -- The rows of a slot are counted, and only a name is a slot.
        cases builds with
        | name means =>
          obtain ⟨rfl, denotes⟩ :=
            Progress.slot_of_nameMeans given (meanings.nameMeans means) isSlot
          have stars : (argument.counted false).phrase.fragment.filter Lexeme.isOperand =
              [.star] := by
            simp [Written.counted, isSlot, Phrase.fragment, Written.star]
            rfl
          rw [stars]
          exact .one (.whole denotes (.inr rfl))
        | literal | countAll | test | counted | tested | behind | enclosed | joined | power =>
          contradiction
  | tested operator text _ ih =>
    have tested := ih.append (.one (.text operator text))
    rw [Written.tested, Written.ofParts, Phrase.fragment, List.filter_append,
      filter_cons_of_not (isOperand_binary _)]
    exact tested
  | behind operator _ ih =>
    rw [Written.behind, Written.ofParts, Phrase.fragment, filter_cons_of_not (isOperand_unary _)]
    exact ih
  | enclosed _ ih =>
    simpa [Written.enclosed, Written.ofParts, Phrase.fragment, Fragment.parenthesized,
      Lexeme.isOperand] using ih
  | joined operator _ _ ihLeft ihRight =>
    rw [Written.joined, Written.ofParts, Phrase.fragment, List.filter_append,
      filter_cons_of_not (isOperand_binary _)]
    exact ihLeft.append ihRight
  | power _ _ ihBase ihExponent =>
    simpa [Written.power, Written.ofParts, Phrase.fragment, Lexeme.isOperand] using
      ihBase.append ihExponent

end

/-! ## Rows that are counted -/

/-- Every `*` is the whole argument of a plain count. -/
def StarsCounted (fragment : Fragment) : Prop :=
  ∀ before after, fragment = before ++ .star :: after →
    ∃ earlier later, before = earlier ++ [.function "COUNT", .opening] ∧ after = .closing :: later

namespace StarsCounted

theorem of_not_mem {fragment : Fragment} (none : Lexeme.star ∉ fragment) :
    StarsCounted fragment := by
  rintro before after rfl
  exact absurd (by simp) none

theorem append {first second : Fragment} (left : StarsCounted first) (right : StarsCounted second) :
    StarsCounted (first ++ second) := by
  intro before after same
  -- The `*` stands in the second fragment or in the first one.
  rcases List.append_eq_append_iff.mp same with ⟨between, rfl, isSecond⟩ |
    ⟨between, isFirst, isAfter⟩
  · obtain ⟨earlier, later, rfl, rfl⟩ := right between after isSecond
    exact ⟨first ++ earlier, later, (List.append_assoc _ _ _).symm, rfl⟩
  · cases between with
    | nil =>
      -- The `*` would be the first lexeme of the second fragment.
      obtain ⟨earlier, _, empty, _⟩ := right [] after isAfter.symm
      simp at empty
    | cons lexeme between =>
      obtain ⟨rfl, rfl⟩ := List.cons.inj isAfter
      obtain ⟨earlier, later, isBefore, rfl⟩ := left before between isFirst
      exact ⟨earlier, later ++ second, isBefore, rfl⟩

theorem cons (lexeme : Lexeme) (other : lexeme ≠ .star) {rest : Fragment}
    (holds : StarsCounted rest) : StarsCounted (lexeme :: rest) := by
  have alone : StarsCounted [lexeme] := of_not_mem (by simpa using other.symm)
  exact alone.append holds

theorem parenthesized {fragment : Fragment} (holds : StarsCounted fragment) :
    StarsCounted fragment.parenthesized := by
  have closed : StarsCounted [.closing] := of_not_mem (by simp)
  exact cons .opening (by simp) (holds.append closed)

theorem called (function : String) {argument : Fragment} (holds : StarsCounted argument) :
    StarsCounted (.function function :: argument.parenthesized) :=
  cons (.function function) (by simp) holds.parenthesized

theorem counted : StarsCounted [.function "COUNT", .opening, .star, .closing] := by
  rintro before after same
  match before with
  | [] | [_] | [_, _, _] => simp at same
  | [first, second] =>
    simp only [List.cons_append, List.nil_append, List.cons.injEq, true_and] at same
    obtain ⟨rfl, rfl, rfl⟩ := same
    exact ⟨[], [], rfl, rfl⟩
  | _ :: _ :: _ :: _ :: _ => simp at same

end StarsCounted

theorem lexeme_binary_ne_star (operator : Sql.Binary) : operator.lexeme ≠ .star := by
  cases operator <;> nofun

theorem lexeme_unary_ne_star (operator : Sql.Unary) : operator.lexeme ≠ .star := by
  cases operator <;> nofun

/-- Only counts write a `*`, if names do not. -/
theorem Lexicon.Builds.starsCounted {lexicon : Lexicon} {parts : List Ingredient}
    {written : Written} (builds : lexicon.Builds parts written)
    (names : ∀ whole name path written, lexicon.name? whole name path = some written →
      StarsCounted written.phrase.fragment) : StarsCounted written.phrase.fragment := by
  induction builds with
  | name means => exact names _ _ _ _ means
  | literal | test =>
    exact .of_not_mem (by simp [Written.ofLiteral, Written.ofParts, Phrase.fragment])
  | countAll => exact .counted
  | @counted function parts argument distinct _ _ _ ih =>
    have plainly := ih.called "COUNT"
    have distinctly := (ih.cons .distinct (by simp)).called "COUNT"
    cases isSlot : argument.slot with
    | none =>
      cases distinct
      · simpa [Written.counted, isSlot, Phrase.fragment, Fragment.parenthesized] using plainly
      · simpa [Written.counted, isSlot, Phrase.fragment, Fragment.parenthesized] using distinctly
    | some slot =>
      cases distinct
      · simpa [Written.counted, isSlot, Phrase.fragment, Written.star] using .counted
      · simpa [Written.counted, isSlot, Phrase.fragment, Fragment.parenthesized] using distinctly
  | tested operator text _ ih =>
    exact ih.append (.cons _ (lexeme_binary_ne_star .like) (.of_not_mem (by
      simp [Written.ofLiteral, Written.ofParts, Phrase.fragment])))
  | behind operator _ ih => exact ih.cons _ (lexeme_unary_ne_star operator)
  | enclosed _ ih => exact ih.parenthesized
  | joined operator _ _ ihLeft ihRight =>
    exact ihLeft.append (ihRight.cons _ (lexeme_binary_ne_star operator))
  | power _ _ ihBase ihExponent =>
    have both := (ihBase.append (ihExponent.cons .comma (by simp))).called "POWER"
    simpa [Written.power, Written.ofParts, Phrase.fragment, Fragment.parenthesized] using both

theorem starsCounted_ofSlot (slot : Slot) (path : List String) :
    StarsCounted (Written.ofSlot slot path).phrase.fragment := by
  unfold Written.ofSlot
  split <;> exact .of_not_mem (by simp [Written.ofParts, Phrase.fragment])

/-- What names were given to writes a `*` in counts only. -/
def Counting (bindings : Bindings) : Prop :=
  ∀ name compiled, bindings.find? name = some compiled → StarsCounted compiled.operand

theorem compile_starsCounted {bindings : Bindings} (counting : Counting bindings)
    (given : bindings.Given) {expression : Expression} {compiled : Compiled}
    {state : CompilerState}
    (compiles : ((compile bindings expression).run.run state).1 = .ok compiled) :
    StarsCounted compiled.operand := by
  obtain ⟨meaning, meanings⟩ := given.meanings
  obtain ⟨written, builds, stands⟩ := compile_builds meanings compiles
  rw [stands.operand]
  refine builds.starsCounted fun whole name path written means => ?_
  cases meanings.nameMeans means with
  | slot | property => exact starsCounted_ofSlot _ _
  | given _ found stands => exact stands.operand ▸ counting name _ found
  | word => exact .of_not_mem (by simp [Written.ofParts, Phrase.fragment])

theorem Bindings.Given.counting {bindings : Bindings} (given : bindings.Given) :
    Counting bindings := by
  induction given with
  | none => exact fun _ _ isFound => nomatch isFound
  | bind given compiles name ih =>
    intro other found isFound
    rw [Bindings.find?_bind] at isFound
    split at isFound
    · obtain rfl := Option.some.inj isFound
      exact compile_starsCounted ih given compiles
    · exact ih other found isFound

/-! ## Whole expressions -/

/-- Next to an operator an expression is one expression of SQL, with one operand for every whole
slot.  It is a list of columns by itself where it is a variable that denotes a slot, and nowhere
else. -/
structure Composed (progress : Progress) (expression : Expression) (compiled : Compiled) :
    Prop where
  scalar : Scalar compiled.operand
  operands : Supplies progress expression.ingredients (compiled.operand.filter Lexeme.isOperand)
  stars : StarsCounted compiled.operand
  whole : ∀ slot, compiled.slot = some slot ↔
    ∃ name, IsVariable name expression ∧ progress.Denotes name slot
  number : ∀ slot, compiled.slot = some slot → compiled.operand = [.field (.outer slot) ["id"]]
  value : compiled.slot = none → compiled.sql = compiled.operand

theorem Progress.compile_composed {progress next : Progress} (given : progress.bindings.Given)
    {expression : Expression} {compiled : Compiled}
    (compiles : progress.compile expression = .ok (compiled, next)) :
    Composed progress expression compiled := by
  obtain ⟨meaning, meanings⟩ := given.meanings
  obtain ⟨written, builds, stands⟩ := Progress.compile_builds meanings compiles
  constructor
  case scalar => exact ⟨written.phrase, stands.operand.symm⟩
  case operands => exact stands.operand ▸ builds.supplies given meanings
  case stars =>
    obtain ⟨state, ran, -⟩ := Progress.compile_run compiles
    exact compile_starsCounted given.counting given (congrArg Prod.fst ran)
  case whole => exact fun slot => Progress.compile_slot_iff given compiles
  case number => exact fun slot => (Progress.compile_laid given compiles).operand
  case value => exact fun value => (operand_of_slot_none value).symm

/-- A predicate is one expression unless it is a whole slot. -/
theorem scalar_conjunct_iff {progress next : Progress} (given : progress.bindings.Given)
    {expression : Expression} {compiled : Compiled}
    (compiles : progress.compile expression = .ok (compiled, next)) :
    Scalar compiled.conjunct ↔ compiled.slot = none := by
  have composed := Progress.compile_composed given compiles
  cases isSlot : compiled.slot with
  | some slot =>
    refine iff_of_false ?_ nofun
    obtain rfl := Progress.compile_whole given compiles slot isSlot
    exact not_scalar_ofSlot slot
  | none =>
    refine iff_of_true ?_ rfl
    obtain ⟨phrase, written⟩ := composed.scalar
    rw [Compiled.conjunct, composed.value isSlot, ← written]
    split
    · exact ⟨.group phrase, rfl⟩
    · exact ⟨phrase, rfl⟩

/-- An item becomes columns that are one expression each. -/
theorem scalar_columnsOf {progress next : Progress} (given : progress.bindings.Given)
    {item : ProjectionItem} {compiled : Compiled}
    (compiles : progress.compile item.expression = .ok (compiled, next)) {column : Column}
    (isOne : column ∈ (Layout.columnsOf item compiled).1) : Scalar column.value := by
  have holds := columnsOf_holds (Progress.compile_laid given compiles)
    (Progress.compile_single given compiles) item
  have isValue := List.mem_map_of_mem (f := Column.value) isOne
  generalize compiled.kind = kind, (Layout.columnsOf item compiled).1.map Column.value = values
    at holds isValue
  cases holds with
  | node | relationship =>
    obtain ⟨_, _, same⟩ := List.mem_map.mp isValue
    exact same ▸ scalar_operand _ rfl
  | scalar phrase => exact ⟨phrase, (List.mem_singleton.mp isValue).symm⟩

theorem mem_columnsOf_of_value {compiled : Compiled} (laid : Laid compiled)
    (value : compiled.slot = none) (item : ProjectionItem) :
    compiled.sql ∈ (Layout.columnsOf item compiled).1.map Column.value := by
  unfold Layout.columnsOf
  cases isAggregate : compiled.aggregate with
  | some aggregate =>
    rw [laid.aggregate aggregate.1 aggregate.2 isAggregate]
    exact List.mem_singleton_self _
  | none =>
    simp only [(laid.value value).2]
    split <;> exact List.mem_singleton_self _

/-! ## Whole queries -/

/-- What an expression compiles to stands in a `SELECT`: a predicate in its filter, and a value in
its list of columns. -/
def Stands (branch : Branch Statement) (compiled : Compiled) : Event → Prop
  | .filter _ | .pass _ => .predicate compiled.conjunct ∈ branch.condition.leaves
  | .list _ => compiled.slot = none → compiled.operand ∈ branch.columns.map Column.value
  | .mention _ | .give _ => True

theorem Passed.stands {settings : Settings} {P : Compiled → Prop} {stage : Stage}
    {before after final : Draft} (passed : Passed settings P final stage before after)
    {branch : Branch Statement} (places : Places settings final branch) {expression : Expression}
    (isOne : stage.event.expression? = some expression) {compiled : Compiled} {next : Progress}
    (compiles : before.progress.compile expression = .ok (compiled, next)) :
    Stands branch compiled stage.event := by
  obtain ⟨earlier, event⟩ := stage
  have step := passed.step
  have within := passed.within
  cases step with
  | mention | give | keep => trivial
  | filter compilesAgain | pass compilesAgain =>
    obtain rfl := Option.some.inj isOne
    obtain ⟨rfl, rfl⟩ := Prod.mk.inj (Except.ok.inj (compilesAgain.symm.trans compiles))
    exact (places.predicates _).mpr (within.fragments (by simp [Predicates.add]))
  | list compilesAgain =>
    obtain rfl := Option.some.inj isOne
    obtain ⟨rfl, rfl⟩ := Prod.mk.inj (Except.ok.inj (compilesAgain.symm.trans compiles))
    intro value
    have laid := Progress.compile_laid passed.sound.compiled compiles
    obtain ⟨column, isColumn, isValue⟩ :=
      List.mem_map.mp (mem_columnsOf_of_value laid value _)
    rw [operand_of_slot_none value, places.values, ← isValue]
    exact List.mem_map_of_mem (within.columns (List.mem_append_right _ isColumn))

/-- Some predicate of a query is a variable that denotes a slot where it stands. -/
def FiltersBySlot (settings : Settings) (query : Query) : Prop :=
  ∃ stage ∈ query.stages, ∃ predicate, stage.event.predicate? = some predicate ∧
    ∃ draft name slot, Run (.start settings) stage.earlier draft ∧ IsVariable name predicate ∧
      draft.progress.Denotes name slot

end Compilation

open Compilation

/-- In every `SELECT` of a query that is accepted, each column and each key is one expression of
SQL.  Whatever an expression compiles to, each of its operands is one expression, for a whole slot
its number or the `*` of a count.  Each predicate is one expression too, exactly if none of them is
a whole slot. -/
theorem Cypher.Query.scalars_iff {settings : Settings} {query : Query} {compiled : CompiledQuery}
    (compiles : query.compile settings = .ok compiled) {branch : Branch Statement}
    (isOne : branch ∈ compiled.statement.branches) :
    (∀ column ∈ branch.columns, Scalar column.value) ∧
      (∀ fragment, .expression fragment ∈ branch.keys → Scalar fragment) ∧
      (∀ stage ∈ query.stages, ∀ expression, stage.event.expression? = some expression →
        ∃ draft made next, Run (.start settings) stage.earlier draft ∧
          draft.progress.compile expression = .ok (made, next) ∧
          Composed draft.progress expression made ∧ Stands branch made stage.event) ∧
      ((∀ fragment, .predicate fragment ∈ branch.condition.leaves → Scalar fragment) ↔
        ¬FiltersBySlot settings query) := by
  obtain ⟨_, final, _, _, _, run, all⟩ := Query.compile_places compiles
  have places := all branch isOne
  have columns : ∀ column ∈ branch.columns, Scalar column.value := by
    intro column isColumn
    have isValue := places.values ▸ List.mem_map_of_mem (f := Column.value) isColumn
    obtain ⟨other, isOther, same⟩ := List.mem_map.mp isValue
    obtain ⟨_, _, _, _, item, _, _, passed, _, ran, isItem⟩ :=
      run.item_origin (fun stage _ => upholds_true stage) isOther
    exact same ▸ scalar_columnsOf passed.sound.compiled ran isItem
  refine ⟨columns, ?keys, ?stages, ?predicates⟩
  case keys =>
    intro fragment isKey
    obtain ⟨column, isColumn, rfl⟩ := places.keys fragment isKey
    exact columns column isColumn
  case stages =>
    intro stage isStage expression isExpression
    obtain ⟨before, after, passed⟩ := run.passed (fun stage _ => upholds_true stage) isStage
    obtain ⟨made, next, ran⟩ := passed.step.compiles isExpression
    exact ⟨before, made, next, passed.reached, ran,
      Progress.compile_composed passed.sound.compiled ran, passed.stands places isExpression ran⟩
  case predicates =>
    constructor
    · rintro scalars ⟨stage, isStage, predicate, isPredicate, draft, name, slot, reached,
        isVariable, denotes⟩
      have isExpression : stage.event.expression? = some predicate := by
        revert isPredicate
        cases stage.event <;> simp [Event.predicate?, Event.expression?]
      obtain ⟨before, after, passed⟩ := run.passed (fun stage _ => upholds_true stage) isStage
      -- A run reaches one draft in front of a stage.
      obtain rfl := passed.reached.unique reached
      obtain ⟨made, next, ran⟩ := passed.step.compiles isExpression
      have isLeaf : .predicate made.conjunct ∈ branch.condition.leaves := by
        have stands := passed.stands places isExpression ran
        revert isPredicate stands
        cases stage.event <;> simp [Event.predicate?, Stands]
      have value := (scalar_conjunct_iff passed.sound.compiled ran).mp (scalars _ isLeaf)
      have isSlot := (Progress.compile_slot_iff passed.sound.compiled ran).mpr
        ⟨name, isVariable, denotes⟩
      exact Option.some_ne_none slot (isSlot.symm.trans value)
    · intro unfiltered fragment isLeaf
      obtain ⟨stage, isStage, before, after, predicate, made, next, passed, isPredicate, ran, rfl⟩ :=
        run.predicate_origin (fun stage _ => upholds_true stage)
          ((places.predicates fragment).mp isLeaf)
      rw [scalar_conjunct_iff passed.sound.compiled ran]
      cases isSlot : made.slot with
      | none => rfl
      | some slot =>
        obtain ⟨name, isVariable, denotes⟩ :=
          (Progress.compile_slot_iff passed.sound.compiled ran).mp isSlot
        refine absurd ⟨stage, isStage, predicate, ?_, before, name, slot, passed.reached,
          isVariable, denotes⟩ unfiltered
        rcases isPredicate with same | ⟨same, -⟩ <;> rw [same, Event.predicate?]

namespace Compilation

def renamedSlotText : String :=
  "MATCH (a)-[r]->(b) WITH a AS m WHERE (m) = b AND m RETURN COUNT(r), (m)"

end Compilation

theorem Cypher.Query.scalars_iff_renamedSlotText : ∃ query compiled branch,
    Query.parse renamedSlotText = .ok query ∧ query.compile .standard = .ok compiled ∧
      branch ∈ compiled.statement.branches ∧
      (∀ column ∈ branch.columns, Scalar column.value) ∧
      ((∀ fragment, .predicate fragment ∈ branch.condition.leaves → Scalar fragment) ↔
        ¬FiltersBySlot .standard query) := by
  have evaluated : anyBranch renamedSlotText (fun _ => true) = true := by decide +kernel
  obtain ⟨query, compiled, branch, parsed, compiles, isOne, -⟩ := exists_of_anyBranch evaluated
  obtain ⟨columns, -, -, predicates⟩ := query.scalars_iff compiles isOne
  exact ⟨query, compiled, branch, parsed, compiles, isOne, columns, predicates⟩

namespace Compilation

def bareSlotText : String :=
  "MATCH (a) WHERE a RETURN a"

def listsColumns : Leaf → Bool
  | .predicate fragment => (fragment.outside 0).any (· matches .comma)
  | _ => false

theorem not_scalar_of_listsColumns {branch : Branch Statement}
    (lists : branch.condition.leaves.any listsColumns = true) :
    ∃ fragment, .predicate fragment ∈ branch.condition.leaves ∧ ¬Scalar fragment := by
  obtain ⟨leaf, isLeaf, lists⟩ := List.any_eq_true.mp lists
  unfold listsColumns at lists
  split at lists
  · next fragment =>
    obtain ⟨lexeme, isOutside, isComma⟩ := List.any_eq_true.mp lists
    obtain rfl : lexeme = .comma := by cases lexeme <;> first | rfl | contradiction
    exact ⟨fragment, isLeaf, not_scalar_of_comma isOutside⟩
  · contradiction

end Compilation

/-- A node that is a predicate by itself is filtered by the list of its columns. -/
theorem Cypher.Query.not_scalars_bareSlotText : ∃ query compiled,
    Query.parse bareSlotText = .ok query ∧ query.compile .standard = .ok compiled ∧
      ¬ ∀ branch ∈ compiled.statement.branches,
        ∀ fragment, .predicate fragment ∈ branch.condition.leaves → Scalar fragment := by
  have evaluated : anyBranch bareSlotText (·.condition.leaves.any listsColumns) = true := by
    decide +kernel
  obtain ⟨query, compiled, branch, parsed, compiles, isOne, lists⟩ := exists_of_anyBranch evaluated
  obtain ⟨fragment, isLeaf, isList⟩ := not_scalar_of_listsColumns lists
  exact ⟨query, compiled, parsed, compiles,
    fun scalars => isList (scalars branch isOne fragment isLeaf)⟩

end CypherSql
