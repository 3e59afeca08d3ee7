import CypherSql.Proofs.Compilation.Progress

/-! # What names and columns hold

A property that all ways of making an expression give is a property of whatever a name stands
for behind the clauses of a query.  So no column of a query aggregates unless an item does.

* `Bindings.Given` — names that stand for what expressions compiled to.
* `progress_given`, `progress_made` — so do the names behind all clauses, and what they stand for
  has such a property.
* `Laid` — the columns of an expression.
* `Query.needsMerging_eq_false` — a query in which nothing aggregates.
-/

namespace CypherSql

open CypherSql.Cypher
open CypherSql.Graph (Slot)
open CypherSql.Sql (Aggregate Fragment)

namespace Compilation

variable {P : Compiled → Prop}

/-! ## Expressions -/

/-- Compiling an expression is making it in one of these ways. -/
theorem compile_holds {bindings : Bindings} (made : Made bindings P) {expression : Expression}
    {state : CompilerState} {compiled : Compiled}
    (compiles : ((compile bindings expression).run.run state).1 = .ok compiled) : P compiled := by
  have law : Law bindings (fun _ _ => True) P :=
    { made with
      refl := fun _ => trivial
      trans := fun _ _ _ _ _ => trivial
      test := fun _ _ => ⟨trivial, fun _ _ => trivial⟩ }
  exact (compile_meets law expression state).2 compiled compiles

theorem Progress.compile_holds {progress after : Progress} (made : Made progress.bindings P)
    {expression : Expression} {compiled : Compiled}
    (compiles : progress.compile expression = .ok (compiled, after)) : P compiled := by
  obtain ⟨state, ran, rfl⟩ := Progress.compile_run compiles
  exact Compilation.compile_holds made (congrArg Prod.fst ran)

/-! ## Names that are given -/

/-- Names that stand for what expressions compiled to, where the names given before may be used. -/
inductive Bindings.Given : Bindings → Prop where
  | none (settings : Settings) : Given ⟨settings, []⟩
  | bind {bindings : Bindings} (given : Given bindings) {expression : Expression}
      {state : CompilerState} {compiled : Compiled}
      (compiles : ((compile bindings expression).run.run state).1 = .ok compiled) (name : String) :
      Given (bindings.bind name compiled)

theorem Bindings.Given.made {settings : Settings} (made : Made ⟨settings, []⟩ P)
    {bindings : Bindings} (given : bindings.Given) : Made bindings P := by
  induction given with
  | none => exact { made with named := List.forall_mem_nil _ }
  | bind _ compiles name ih => exact ih.bind (Compilation.compile_holds ih compiles) name

def KeepsGiven (before after : Progress) : Prop :=
  before.bindings.Given → after.bindings.Given

theorem KeepsGiven.refl (progress : Progress) : KeepsGiven progress progress := id

theorem KeepsGiven.trans (first second third : Progress) (left : KeepsGiven first second)
    (right : KeepsGiven second third) : KeepsGiven first third :=
  right ∘ left

theorem Progress.addMatch_keepsGiven {progress after : Progress} {clause : MatchClause}
    (added : progress.addMatch clause = .ok after) : KeepsGiven progress after := by
  obtain ⟨graph, _, filtered⟩ := bind_eq_ok.mp added
  intro given
  rw [(Progress.filter_ok filtered).2]
  exact given

theorem Progress.addItem_keepsGiven {progress after : Progress} {item : ProjectionItem}
    (added : progress.addItem item = .ok after) : KeepsGiven progress after := by
  intro given
  obtain ⟨compiled, next, compiles, -, same | ⟨name, named⟩⟩ := Progress.addItem_ok added
  · rwa [same]
  · obtain ⟨state, ran, -⟩ := Progress.compile_run compiles
    rw [named]
    exact given.bind (congrArg Prod.fst ran) name

theorem Progress.addWith_keepsGiven {progress after : Progress} {clause : WithClause}
    (added : progress.addWith clause = .ok after) : KeepsGiven progress after := by
  obtain ⟨next, items, filtered⟩ := bind_eq_ok.mp added
  have itemsKeep : KeepsGiven progress next :=
    foldlM_keeps KeepsGiven.refl KeepsGiven.trans (fun _ _ _ => Progress.addItem_keepsGiven) items
  intro given
  rw [(Progress.filterPassed_ok filtered).2]
  exact itemsKeep given

/-- The names of a query stand for what expressions compiled to. -/
theorem progress_given {settings : Settings} {query : Query} {progress : Progress}
    (progressed : query.progress settings = .ok progress) : progress.bindings.Given := by
  obtain ⟨matched, matches', passed⟩ := bind_eq_ok.mp progressed
  have first : KeepsGiven (.start settings) matched :=
    foldlM_keeps KeepsGiven.refl KeepsGiven.trans (fun _ _ _ => Progress.addMatch_keepsGiven)
      matches'
  have second : KeepsGiven matched progress :=
    foldlM_keeps KeepsGiven.refl KeepsGiven.trans (fun _ _ _ => Progress.addWith_keepsGiven) passed
  exact second (first (.none settings))

theorem progress_made {settings : Settings} {query : Query} {progress : Progress}
    (made : Made ⟨settings, []⟩ P) (progressed : query.progress settings = .ok progress) :
    Made progress.bindings P :=
  (progress_given progressed).made made

/-! ## Columns of an expression -/

/-- An aggregate with its argument, as SQL. -/
def applied (aggregate : Aggregate) (argument : Fragment) : Fragment :=
  [.function aggregate.name, .opening] ++ (if aggregate.distinct then [.distinct] else []) ++
    argument ++ [.closing]

/-- A whole slot has the columns of its row, and nothing aggregates in it.  Everything else is a
single value. -/
structure Laid (compiled : Compiled) : Prop where
  slot : ∀ slot, compiled.slot = some slot →
    compiled.kind = kindOfSlot slot.kind ∧ compiled.columns = (Compiled.ofSlot slot).columns ∧
      compiled.aggregate = none ∧ compiled.aggregates = false
  value : compiled.slot = none → compiled.kind = .scalar ∧ compiled.columns = [compiled.sql]
  aggregate : ∀ aggregate argument, compiled.aggregate = some (aggregate, argument) →
    compiled.sql = applied aggregate argument

theorem laid_of_value {compiled : Compiled} (noSlot : compiled.slot = none)
    (kind : compiled.kind = .scalar) (columns : compiled.columns = [compiled.sql])
    (aggregate : ∀ aggregate argument, compiled.aggregate = some (aggregate, argument) →
      compiled.sql = applied aggregate argument) : Laid compiled where
  slot _ isSlot := nomatch noSlot.symm.trans isSlot
  value _ := ⟨kind, columns⟩
  aggregate := aggregate

theorem laid_ofSlot (slot : Slot) : Laid (.ofSlot slot) where
  slot other same := by
    obtain rfl := Option.some.inj same
    exact ⟨rfl, rfl, rfl, rfl⟩
  value noSlot := nomatch noSlot
  aggregate _ _ isAggregate := nomatch isAggregate

theorem laid_ofAggregate (aggregate : Aggregate) (argument : Fragment) (parts : List Compiled) :
    Laid (.ofAggregate aggregate argument parts) := by
  refine laid_of_value rfl rfl rfl fun other argument' same => ?_
  obtain ⟨rfl, rfl⟩ := Prod.mk.inj (Option.some.inj same)
  rfl

theorem made_laid (settings : Settings) : Made ⟨settings, []⟩ Laid where
  scalar _ := laid_of_value rfl rfl rfl nofun
  parts _ _ _ := laid_of_value rfl rfl rfl nofun
  disjunction _ _ := laid_of_value rfl rfl rfl nofun
  slot := laid_ofSlot
  property _ _ := laid_of_value rfl rfl rfl nofun
  aggregate aggregate argument parts _ := laid_ofAggregate aggregate argument parts
  reading _ _ := laid_of_value rfl rfl rfl nofun
  named := List.forall_mem_nil _

/-- Next to an operator a whole slot is its number. -/
theorem Laid.operand {compiled : Compiled} (laid : Laid compiled) {slot : Slot}
    (isSlot : compiled.slot = some slot) :
    compiled.operand = [.field (.outer slot) ["id"]] := by
  obtain ⟨-, columns, -⟩ := laid.slot slot isSlot
  obtain ⟨kind, index⟩ := slot
  cases kind <;> simp [Compiled.operand, isSlot, columns, Compiled.ofSlot, Sql.rowColumns]

/-! ## Columns without aggregates -/

/-- What is an aggregate as a whole has an aggregate in it. -/
def Coherent (compiled : Compiled) : Prop :=
  compiled.aggregate.isSome = true → compiled.aggregates = true

theorem made_coherent (settings : Settings) : Made ⟨settings, []⟩ Coherent := by
  constructor <;> intros <;> intro isAggregate <;> first | contradiction | rfl

/-- Where no item aggregates, no column does. -/
def Plain (layout : Layout) : Prop :=
  layout.aggregated = false → ∀ column ∈ layout.columns, column.aggregate = none

theorem columnsOf_plain {item : ProjectionItem} {compiled : Compiled}
    (noAggregate : compiled.aggregate = none) {column : Sql.Column}
    (isOne : column ∈ (Layout.columnsOf item compiled).1) : column.aggregate = none := by
  simp only [Layout.columnsOf, noAggregate] at isOne
  split at isOne
  · obtain rfl := List.mem_singleton.mp isOne
    rfl
  · split at isOne
    · obtain rfl := List.mem_singleton.mp isOne
      rfl
    · obtain ⟨fragment, _, rfl⟩ := List.mem_map.mp isOne
      rfl

theorem Plain.add {layout : Layout} (plain : Plain layout) {compiled : Compiled}
    (coherent : Coherent compiled) (item : ProjectionItem) : Plain (layout.add item compiled) := by
  intro unaggregated column isOne
  obtain ⟨earlier, unused⟩ := Bool.or_eq_false_iff.mp unaggregated
  rcases List.mem_append.mp isOne with inLayout | inItem
  · exact plain earlier column inLayout
  · have noAggregate : compiled.aggregate = none := by
      by_contra some
      have := coherent (Option.isSome_iff_ne_none.mpr some)
      rw [unused] at this
      contradiction
    exact columnsOf_plain noAggregate inItem

theorem layoutItems_plain {progress after : Progress} (made : Made progress.bindings Coherent)
    {layout result : Layout} (plain : Plain layout) {items : List ProjectionItem}
    (laid : layoutItems progress layout items = .ok (result, after)) : Plain result := by
  induction items generalizing progress layout with
  | nil =>
    obtain ⟨rfl, rfl⟩ := Prod.mk.inj (Except.ok.inj laid)
    exact plain
  | cons item rest ih =>
    obtain ⟨⟨compiled, next⟩, compiles, laidRest⟩ := bind_eq_ok.mp laid
    have coherent := Progress.compile_holds made compiles
    rw [← (Progress.compile_ok compiles).2.1] at made
    exact ih made (plain.add coherent item) laidRest

end Compilation

open Compilation

/-- Where no item of a query aggregates, nothing is grouped and no column aggregates. -/
theorem Cypher.Query.needsMerging_eq_false {settings : Settings} {query : Query}
    {selection : Sql.Selection} {projections : List Projection}
    (selected : query.selection settings = .ok (selection, projections))
    (unaggregated : selection.aggregated = false) : selection.needsMerging = false := by
  obtain ⟨progress, layout, final, page, progressed, _, laid, _, rfl, _⟩ :=
    Query.selection_ok selected
  have plain := layoutItems_plain (progress_made (made_coherent settings) progressed)
    (by intro _ _ isOne; contradiction) laid
  have columns : (layout.columns.any fun column => column.aggregate.isSome) = false := by
    rw [List.any_eq_false]
    intro column isOne
    simp [plain unaggregated column isOne]
  have unkeyed : layout.grouping = [] := by
    simp only [Layout.grouping]
    exact if_neg (by simpa using unaggregated)
  simp [Sql.Selection.needsMerging, columns, unkeyed]
  exact unaggregated

end CypherSql
