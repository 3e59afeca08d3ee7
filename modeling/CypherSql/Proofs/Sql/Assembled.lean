import CypherSql.Proofs.Success
import CypherSql.Sql.Assembly

/-! # The three forms of a statement

* `Assembled` — what is known of the parts of a statement, for each form that it can take.
* `Selection.assembled` — a query becomes a statement in one of these forms.
* `Selection.branches_ok` — the sources and joins of its branches.
-/

namespace CypherSql.Sql

/-- The parts of the statement of a query.  A union has a branch for every clause and every
list of joins; it is merged when there is something to aggregate. -/
inductive Assembled (selection : Selection) : Statement → Prop
  | single {sources : List (Source Statement)} {clause : Condition Leaf} {joins : List Join}
      {keys : List Key} (areSources : assembleSources selection.sources = .ok sources)
      (isClause : branchConditions selection.condition = [clause])
      (areJoins : joinAlternatives selection.joins = [joins])
      (areKeys : keysOf selection.columns selection.grouping = .ok keys) :
      Assembled selection
        (.single ⟨selection.distinct, selection.columns, sources, joins, clause.flatten, keys⟩
          selection.page)
  | merged {sources : List (Source Statement)} {named : List Column} {keys : List Key}
      {columns : List Merged} {outerKeys : List String}
      (needed : selection.needsMerging = true)
      (mergeable : requireMergeable selection.columns selection.grouping = .ok ())
      (areNamed : withNames selection.columns = .ok named)
      (areSources : assembleSources selection.sources = .ok sources)
      (areKeys : keysOf named selection.grouping = .ok keys)
      (areColumns : named.mapM mergedColumn = .ok columns)
      (areOuterKeys : (selection.grouping.mapM fun index => do
        requiredName (← columnAt named index)) = .ok outerKeys) :
      Assembled selection
        (.merged columns selection.distinct
          (unionBranches named sources keys (branchConditions selection.condition)
            (joinAlternatives selection.joins)) outerKeys selection.page)
  | union {sources : List (Source Statement)} {keys : List Key}
      (unneeded : selection.needsMerging = false)
      (areSources : assembleSources selection.sources = .ok sources)
      (areKeys : keysOf selection.columns selection.grouping = .ok keys) :
      Assembled selection
        (.union selection.distinct
          (unionBranches selection.columns sources keys (branchConditions selection.condition)
            (joinAlternatives selection.joins)) selection.page)

theorem Selection.assembled {selection : Selection} {statement : Statement}
    (succeeds : selection.assemble = .ok statement) :
    selection.columns ≠ [] ∧ Assembled selection statement := by
  obtain ⟨distinct, columns, sources, joins, condition, grouping, aggregated, page⟩ := selection
  rw [Selection.assemble] at succeeds
  split at succeeds
  · contradiction
  · next present =>
    refine ⟨by simpa using present, ?_⟩
    split at succeeds
    · next clause joins isClause areJoins =>
      obtain ⟨sources, areSources, succeeds⟩ := bind_eq_ok.mp succeeds
      obtain ⟨keys, areKeys, succeeds⟩ := bind_eq_ok.mp succeeds
      obtain rfl := pure_eq_ok.mp succeeds
      exact .single areSources isClause areJoins areKeys
    · split at succeeds
      · next needed =>
        obtain ⟨_, mergeable, succeeds⟩ := bind_eq_ok.mp succeeds
        obtain ⟨named, areNamed, succeeds⟩ := bind_eq_ok.mp succeeds
        obtain ⟨sources, areSources, succeeds⟩ := bind_eq_ok.mp succeeds
        obtain ⟨keys, areKeys, succeeds⟩ := bind_eq_ok.mp succeeds
        obtain ⟨merged, areColumns, succeeds⟩ := bind_eq_ok.mp succeeds
        obtain ⟨outerKeys, areOuterKeys, succeeds⟩ := bind_eq_ok.mp succeeds
        obtain rfl := pure_eq_ok.mp succeeds
        exact .merged needed mergeable areNamed areSources areKeys areColumns areOuterKeys
      · next unneeded =>
        obtain ⟨sources, areSources, succeeds⟩ := bind_eq_ok.mp succeeds
        obtain ⟨keys, areKeys, succeeds⟩ := bind_eq_ok.mp succeeds
        obtain rfl := pure_eq_ok.mp succeeds
        exact .union (Bool.eq_false_iff.mpr unneeded) areSources areKeys

/-- Tables are the same before and after assembly. -/
theorem assembleSources_tables {α : Type} (table : α → String) (row : α → Alias) (xs : List α) :
    assembleSources (xs.map fun x => .table (table x) (some (row x))) =
      .ok (xs.map fun x => .table (table x) (some (row x))) := by
  induction xs with
  | nil => rw [List.map_nil, assembleSources, List.map_nil]
  | cons x xs ih =>
    rw [List.map_cons, assembleSources, ih, assembleSource]
    rfl

theorem sourceTexts_eq (sources : List (String × Alias)) :
    sourceTexts (sources.map fun source => .table source.1 (some source.2)) =
      sources.map fun source => source.1 ++ " " ++ source.2.text := by
  induction sources with
  | nil => rw [List.map_nil, sourceTexts, List.map_nil]
  | cons source rest ih => rw [List.map_cons, sourceTexts, ih, sourceText, List.map_cons]

theorem mem_unionBranches {columns : List Column} {sources : List (Source Statement)}
    {keys : List Key} {clauses : List (Condition Leaf)} {alternatives : List (List Join)}
    {branch : Branch Statement}
    (isOne : branch ∈ unionBranches columns sources keys clauses alternatives) :
    branch.sources = sources ∧ branch.joins ∈ alternatives := by
  obtain ⟨clause, _, isOne⟩ := List.mem_flatMap.mp isOne
  obtain ⟨joins, isAlternative, rfl⟩ := List.mem_map.mp isOne
  exact ⟨rfl, isAlternative⟩

theorem Selection.branches_ok {selection : Selection} {statement : Statement}
    (succeeds : selection.assemble = .ok statement) :
    ∃ sources, assembleSources selection.sources = .ok sources ∧
      ∀ branch ∈ statement.branches,
        branch.sources = sources ∧ branch.joins ∈ joinAlternatives selection.joins := by
  obtain ⟨_, assembled⟩ := Selection.assembled succeeds
  cases assembled with
  | single areSources _ areJoins =>
    refine ⟨_, areSources, fun branch isOne => ?_⟩
    obtain rfl := List.mem_singleton.mp isOne
    exact ⟨rfl, by simp [areJoins]⟩
  | merged _ _ _ areSources => exact ⟨_, areSources, fun _ isOne => mem_unionBranches isOne⟩
  | union _ areSources => exact ⟨_, areSources, fun _ isOne => mem_unionBranches isOne⟩

def Statement.page : Statement → Page
  | single _ page => page
  | union _ _ page => page
  | merged _ _ _ _ page => page

theorem Selection.page_ok {selection : Selection} {statement : Statement}
    (succeeds : selection.assemble = .ok statement) : statement.page = selection.page := by
  obtain ⟨_, assembled⟩ := Selection.assembled succeeds
  cases assembled <;> rfl

end CypherSql.Sql
