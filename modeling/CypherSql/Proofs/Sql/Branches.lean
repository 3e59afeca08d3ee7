import CypherSql.Proofs.Compilation.Columns
import CypherSql.Proofs.Condition.Leaves

/-! # What branches are made of

Each branch of a statement lists the columns of its query, tests one clause of its condition and is
grouped by some of its columns.

* `Branch.Of` — a branch of the statement of a query.
* `Selection.branch_of` — all branches are such.
* `Branch.Of.leaf_origin`, `Branch.Of.leaf_mem` — what the filter of a branch tests.
* `Branch.lexemes`, `Branch.tests` — the lexemes of all expressions of a branch, and all tests
  between rows.
-/

namespace CypherSql.Sql

open CypherSql.Compilation

structure Branch.Of (selection : Selection) (branch : Branch Statement) : Prop where
  values : branch.columns.map Column.value = selection.columns.map Column.value
  condition : ∃ clause ∈ branchConditions selection.condition, branch.condition = clause.flatten
  keys : ∀ fragment, .expression fragment ∈ branch.keys →
    ∃ column ∈ branch.columns, fragment = column.value

/-- A key that has no name is a column that is no aggregate. -/
theorem value_of_keyOf {column : Column} {fragment : Fragment}
    (isKey : keyOf column = .ok (.expression fragment)) : fragment = column.value := by
  unfold keyOf at isKey
  split at isKey
  · cases isKey
  · next unaggregated =>
    obtain rfl : column.expression = fragment := by simpa using isKey
    rw [Column.value, unaggregated]
  · cases isKey

theorem keysOf_values {columns : List Column} {grouping : List Nat} {keys : List Key}
    (areKeys : keysOf columns grouping = .ok keys) {fragment : Fragment}
    (isKey : .expression fragment ∈ keys) : ∃ column ∈ columns, fragment = column.value := by
  have each := mapM_eq_ok.mp areKeys
  induction each with
  | nil => contradiction
  | @cons index key _ _ isFirst each ih =>
    rcases List.mem_cons.mp isKey with rfl | later
    · obtain ⟨column, isColumn, isFirst⟩ := bind_eq_ok.mp isFirst
      unfold columnAt at isColumn
      split at isColumn
      · next found =>
        obtain rfl := Except.ok.inj isColumn
        exact ⟨_, List.mem_of_getElem? found, value_of_keyOf isFirst⟩
      · contradiction
    · exact ih (mapM_eq_ok.mpr each) later

theorem Selection.branch_of {selection : Selection} {statement : Statement}
    (succeeds : selection.assemble = .ok statement) {branch : Branch Statement}
    (isOne : branch ∈ statement.branches) : branch.Of selection := by
  obtain ⟨_, assembled⟩ := Selection.assembled succeeds
  cases assembled with
  | @single sources clause joins keys _ isClause _ areKeys =>
    obtain rfl := List.mem_singleton.mp isOne
    exact ⟨rfl, ⟨clause, by simp [isClause], rfl⟩, fun fragment => keysOf_values areKeys⟩
  | merged _ _ areNamed _ areKeys =>
    obtain ⟨clause, isClause, isOne⟩ := List.mem_flatMap.mp isOne
    obtain ⟨joins, _, rfl⟩ := List.mem_map.mp isOne
    exact ⟨map_value_of_renamed (nameFrom_renamed areNamed), ⟨clause, isClause, rfl⟩,
      fun fragment => keysOf_values areKeys⟩
  | union _ _ areKeys =>
    obtain ⟨clause, isClause, isOne⟩ := List.mem_flatMap.mp isOne
    obtain ⟨joins, _, rfl⟩ := List.mem_map.mp isOne
    exact ⟨rfl, ⟨clause, isClause, rfl⟩, fun fragment => keysOf_values areKeys⟩

namespace Branch.Of

variable {selection : Selection} {branch : Branch Statement} (isBranch : branch.Of selection)
  {leaf : Leaf}

include isBranch

/-- A branch tests what its query does, unless that can hold in no way. -/
theorem leaf_origin (isLeaf : leaf ∈ branch.condition.leaves) :
    leaf ∈ selection.condition.leaves ∨ leaf = .never := by
  obtain ⟨clause, isClause, same⟩ := isBranch.condition
  rw [same, Condition.leaves_flatten] at isLeaf
  unfold branchConditions at isClause
  split at isClause
  · obtain rfl := List.mem_singleton.mp isClause
    exact .inr (List.mem_singleton.mp isLeaf)
  · exact .inl (Condition.leaves_subset_of_mem_clauses _ clause isClause isLeaf)

/-- What the query tests next to all else, every branch tests. -/
theorem leaf_mem {children : List (Condition Leaf)} (isAll : selection.condition = .all children)
    {truth : Leaf → Bool} (holds : selection.condition.holds truth = true)
    (isChild : .leaf leaf ∈ children) : leaf ∈ branch.condition.leaves := by
  obtain ⟨clause, isClause, same⟩ := isBranch.condition
  have present := Condition.clauses_ne_nil holds
  rw [same, Condition.leaves_flatten]
  unfold branchConditions at isClause
  split at isClause
  · contradiction
  · rw [isAll] at isClause
    exact Condition.mem_leaves_of_mem_clauses isClause isChild

end Branch.Of

/-! ## Lexemes and tests -/

def Leaf.lexemes : Leaf → List Lexeme
  | .predicate fragment => fragment
  | .shape _ | .never => []

def Leaf.tests : Leaf → List Test
  | .shape test => [test]
  | .predicate _ | .never => []

def Key.lexemes : Key → List Lexeme
  | .expression fragment => fragment
  | .named _ => []

/-- What a sub-select tests. -/
def Lexeme.tests : Lexeme → List Test
  | .existing sub => sub.condition.leaves
  | _ => []

namespace Branch

variable (branch : Branch Statement)

/-- The lexemes of the columns, of the predicates in the filter, and of what the rows are grouped
by. -/
def lexemes : List Lexeme :=
  branch.columns.flatMap Column.value ++ branch.condition.leaves.flatMap Leaf.lexemes ++
    branch.keys.flatMap Key.lexemes

/-- The tests of the filter, and those of the sub-selects. -/
def tests : List Test :=
  branch.condition.leaves.flatMap Leaf.tests ++ branch.lexemes.flatMap Lexeme.tests

end Branch

end CypherSql.Sql
