import CypherSql.Proofs.Sql.Branches
import CypherSql.Proofs.Sql.Naming
import CypherSql.Proofs.Sql.Statements

/-! # Clear statements come from clear queries

* `isName_freeName` — a name that is made up for a clear column is no keyword of a `SELECT`.
* `Selection.IsClear` — plain names and texts in all parts of a query.
* `Selection.assemble_clear` — then they are plain in all parts of its statement.
-/

namespace CypherSql.Sql

open CypherSql.Text (isIdentifier)

/-! ## Names that are made up -/

section

variable {known : List String} (areNames : ∀ table ∈ known, isIdentifier table = true)

theorem isReserved_of_underscore {name : String} (isOne : '_' ∈ name.toList) :
    isReserved name = false :=
  isReserved_eq_false_of_mem isOne (by decide)

theorem isReserved_candidate {base : String} (other : isReserved base = false) (number : Nat) :
    isReserved (candidate base number) = false := by
  cases number with
  | zero => exact other
  | succ number => exact isReserved_of_underscore (by simp [candidate])

/-- A text that is a single name is read as that name. -/
theorem isReserved_of_readsValue {text : String} {row : List Token}
    (reads : ReadsValue known text row) (isName : isIdentifier text = true) :
    isReserved text = false := by
  obtain rfl := reads.scans.unique (scans_identifier isName)
  exact reads.quiet.words _ List.mem_cons_self

theorem baseName_of_aggregate {column : Column} {aggregate : Aggregate}
    (isAggregate : column.aggregate = some aggregate) :
    ∃ base, baseName column = base ++ "_" ++ aggregate.name := by
  simp only [baseName, isAggregate]
  exact ⟨_, rfl⟩

theorem baseName_of_plain {column : Column} (unaggregated : column.aggregate = none) :
    baseName column = if column.expression.text == "*" then "star"
      else String.ofList (column.expression.text.toList.map fun c => if c == '.' then '_' else c) := by
  simp only [baseName, unaggregated]

include areNames

/-- An underscore stands in a name that is not taken from a single word. -/
theorem isReserved_baseName {column : Column} (clear : column.IsClear known)
    (isName : isIdentifier (baseName column) = true) : isReserved (baseName column) = false := by
  cases isAggregate : column.aggregate with
  | some aggregate =>
    obtain ⟨base, isBase⟩ := baseName_of_aggregate isAggregate
    rw [isBase]
    exact isReserved_of_underscore (by simp)
  | none =>
    rw [baseName_of_plain isAggregate] at isName ⊢
    split
    · decide
    · next other =>
      rw [if_neg other] at isName
      by_cases pointed : '.' ∈ column.expression.text.toList
      · refine isReserved_of_underscore ?_
        rw [String.toList_ofList]
        exact List.mem_map.mpr ⟨'.', pointed, rfl⟩
      · have same : column.expression.text.toList.map (fun c => if c == '.' then '_' else c) =
            column.expression.text.toList := by
          refine (List.map_congr_left fun c isOne => if_neg ?_).trans (List.map_id' _)
          rintro isPoint
          exact pointed (beq_iff_eq.mp isPoint ▸ isOne)
        have isValue : column.value = column.expression := by rw [Column.value, isAggregate]
        obtain ⟨row, reads⟩ := clear.value.readsValue areNames
        rw [same, String.ofList_toList] at isName ⊢
        exact isReserved_of_readsValue (isValue ▸ reads) isName

theorem isName_freeName {column : Column} (clear : column.IsClear known)
    (isName : isIdentifier (baseName column) = true) (taken : List String) :
    IsName (freeName taken (baseName column)) where
  identifier := isIdentifier_freeName isName taken
  unreserved := by
    obtain ⟨number, free, before⟩ := exists_candidate taken (baseName column)
    rw [freeName_eq_candidate free before]
    exact isReserved_candidate (isReserved_baseName areNames clear isName) number

/-- Columns are clear under the names that are made up for them, too. -/
theorem nameFrom_clear {taken : List String} {columns named : List Column}
    (succeeds : nameFrom taken columns = .ok named) (clear : ∀ column ∈ columns, column.IsClear known) :
    ∀ column ∈ named, column.IsClear known := by
  induction columns generalizing taken named with
  | nil =>
    obtain rfl := Except.ok.inj succeeds
    exact List.forall_mem_nil _
  | cons column rest ih =>
    obtain ⟨first, others⟩ := List.forall_mem_cons.mp clear
    obtain ⟨name, named, isName, areNamed, rfl⟩ | ⟨named, unnamed, isName, areNamed, rfl⟩ :=
      nameFrom_cons_ok succeeds
    · exact List.forall_mem_cons.mpr ⟨first, ih areNamed others⟩
    · refine List.forall_mem_cons.mpr ⟨⟨first.value, fun name isOne => ?_⟩, ih areNamed others⟩
      obtain rfl := Option.some.inj isOne
      exact isName_freeName areNames first isName taken

end

/-! ## Keys -/

/-- What a row is turned into comes from some member of it. -/
theorem exists_of_mapM {α β ε : Type} {f : α → Except ε β} {xs : List α} {ys : List β}
    (succeeds : xs.mapM f = .ok ys) {y : β} (isOne : y ∈ ys) : ∃ x ∈ xs, f x = .ok y := by
  obtain ⟨index, there⟩ := List.getElem?_of_mem isOne
  obtain ⟨x, isMember, result⟩ := forall₂_at (mapM_eq_ok.mp succeeds).flip there
  exact ⟨x, List.mem_of_getElem? isMember, result⟩

section

variable {known : List String} {columns : List Column} {grouping : List Nat}
  (clear : ∀ column ∈ columns, column.IsClear known)

include clear

theorem keysOf_clear {keys : List Key} (areKeys : keysOf columns grouping = .ok keys) :
    ∀ key ∈ keys, key.IsClear known := by
  intro key isKey
  obtain ⟨index, -, isKey⟩ := exists_of_mapM areKeys isKey
  obtain ⟨column, isColumn, isKey⟩ := bind_eq_ok.mp isKey
  have clearColumn := clear column (List.mem_of_getElem? (columnAt_eq_ok.mp isColumn))
  cases key with
  | expression fragment =>
    rw [value_of_keyOf isKey] at *
    exact clearColumn.value
  | named name =>
    unfold keyOf at isKey
    split at isKey
    · next isName =>
      obtain rfl : _ = name := by simpa using isKey
      exact clearColumn.name _ isName
    · cases isKey
    · cases isKey

/-- Functions and columns are called by their names in the outer query. -/
theorem mergedColumns_clear {merged : List Merged}
    (functions : ∀ column ∈ columns, ∀ aggregate ∈ column.aggregate, IsName aggregate.name)
    (areColumns : columns.mapM mergedColumn = .ok merged) : ∀ column ∈ merged, column.IsClear := by
  intro found isOne
  obtain ⟨column, isColumn, isMerged⟩ := exists_of_mapM areColumns isOne
  obtain ⟨name, isName, isMerged⟩ := bind_eq_ok.mp isMerged
  have clearName := (clear column isColumn).name name (requiredName_eq_ok.mp isName)
  cases isAggregate : column.aggregate with
  | none =>
    simp only [isAggregate] at isMerged
    obtain rfl := pure_eq_ok.mp isMerged
    exact clearName
  | some aggregate =>
    simp only [isAggregate] at isMerged
    obtain rfl := pure_eq_ok.mp isMerged
    split
    · exact clearName
    · exact ⟨functions column isColumn aggregate isAggregate, clearName⟩

theorem outerKeys_clear {keys : List String}
    (areKeys : (grouping.mapM fun index => do requiredName (← columnAt columns index)) = .ok keys) :
    ∀ key ∈ keys, IsName key := by
  intro key isKey
  obtain ⟨index, -, isKey⟩ := exists_of_mapM areKeys isKey
  obtain ⟨column, isColumn, isKey⟩ := bind_eq_ok.mp isKey
  exact (clear column (List.mem_of_getElem? (columnAt_eq_ok.mp isColumn))).name key
    (requiredName_eq_ok.mp isKey)

end

/-! ## Queries -/

structure Selection.IsClear (known : List String) (selection : Selection) : Prop where
  columns : ∀ column ∈ selection.columns, column.IsClear known
  functions : ∀ column ∈ selection.columns, ∀ aggregate ∈ column.aggregate, IsName aggregate.name
  sources : ∃ sources, selection.sources =
    sources.map (fun source => .table source.1 (some source.2)) ∧ ArePlain known sources
  joins : selection.joins = []
  leaves : ∀ leaf ∈ selection.condition.leaves, leaf.IsClear known

section

variable {known : List String} {selection : Selection} {statement : Statement}
  (areNames : ∀ table ∈ known, isIdentifier table = true)

/-- The branches of a clear query are clear, whichever names their columns have. -/
theorem Selection.IsClear.branch (clear : selection.IsClear known)
    (succeeds : selection.assemble = .ok statement) {branch : Branch Statement}
    (isOne : branch ∈ statement.branches) (present : branch.columns ≠ [])
    (columns : ∀ column ∈ branch.columns, column.IsClear known)
    (keys : ∀ key ∈ branch.keys, key.IsClear known) : branch.IsClear known := by
  obtain ⟨sources, areSources, plain⟩ := clear.sources
  obtain ⟨found, assembled, each⟩ := Selection.branches_ok succeeds
  rw [areSources, assembleSources_tables] at assembled
  obtain rfl := Except.ok.inj assembled
  obtain ⟨sameSources, isAlternative⟩ := each branch isOne
  rw [clear.joins] at isAlternative
  refine ⟨present, columns, ⟨sources, sameSources, plain⟩, List.mem_singleton.mp isAlternative, ?_, keys⟩
  intro leaf isLeaf
  rcases (Selection.branch_of succeeds isOne).leaf_origin isLeaf with isLeaf | rfl
  · exact clear.leaves leaf isLeaf
  · trivial

theorem keys_of_mem_unionBranches {columns : List Column} {sources : List (Source Statement)}
    {keys : List Key} {clauses : List (Condition Leaf)} {alternatives : List (List Join)}
    {branch : Branch Statement}
    (isOne : branch ∈ unionBranches columns sources keys clauses alternatives) : branch.keys = keys := by
  obtain ⟨clause, _, isOne⟩ := List.mem_flatMap.mp isOne
  obtain ⟨joins, _, rfl⟩ := List.mem_map.mp isOne
  rfl

/-- A union has some branches, and they all have the same columns and keys. -/
theorem Selection.IsClear.branches (clear : selection.IsClear known)
    (succeeds : selection.assemble = .ok statement) {columns : List Column}
    {sources : List (Source Statement)} {keys : List Key}
    (areBranches : statement.branches = unionBranches columns sources keys
      (branchConditions selection.condition) (joinAlternatives selection.joins))
    (present : columns ≠ []) (clearColumns : ∀ column ∈ columns, column.IsClear known)
    (clearKeys : ∀ key ∈ keys, key.IsClear known) :
    statement.branches ≠ [] ∧ ∀ branch ∈ statement.branches, branch.IsClear known := by
  obtain ⟨first, rest, areParts⟩ := List.exists_cons_of_ne_nil selection.parts_ne_nil
  constructor
  · rw [areBranches, unionBranches_eq, areParts]
    exact List.cons_ne_nil _ _
  · intro branch isOne
    have isPart := areBranches ▸ isOne
    have sameColumns := columns_of_mem_unionBranches isPart
    have sameKeys := keys_of_mem_unionBranches isPart
    exact clear.branch succeeds isOne (sameColumns ▸ present) (sameColumns ▸ clearColumns)
      (sameKeys ▸ clearKeys)

include areNames

theorem Selection.assemble_clear (clear : selection.IsClear known)
    (succeeds : selection.assemble = .ok statement) : statement.IsClear known := by
  obtain ⟨present, assembled⟩ := Selection.assembled succeeds
  cases assembled with
  | single _ _ _ areKeys =>
    exact clear.branch succeeds (List.mem_singleton_self _) present clear.columns
      (keysOf_clear clear.columns areKeys)
  | @union sources keys _ _ areKeys =>
    exact clear.branches succeeds rfl present clear.columns (keysOf_clear clear.columns areKeys)
  | @merged sources named keys columns outerKeys _ _ areNamed _ areKeys areColumns areOuterKeys =>
    have renamed := nameFrom_renamed areNamed
    have clearNamed := nameFrom_clear areNames areNamed clear.columns
    have functions : ∀ column ∈ named, ∀ aggregate ∈ column.aggregate, IsName aggregate.name := by
      intro column isColumn
      obtain ⟨index, there⟩ := List.getElem?_of_mem isColumn
      obtain ⟨original, isOriginal, same⟩ := renamed_at renamed there
      exact same.aggregate ▸ clear.functions original (List.mem_of_getElem? isOriginal)
    have some : named ≠ [] := by
      rintro rfl
      exact present (List.length_eq_zero_iff.mp renamed.length_eq)
    have someMerged : columns ≠ [] := by
      rintro rfl
      exact some (List.length_eq_zero_iff.mp (mapM_eq_ok.mp areColumns).length_eq)
    exact ⟨clear.branches succeeds rfl some clearNamed (keysOf_clear clearNamed areKeys), someMerged,
      mergedColumns_clear clearNamed functions areColumns, outerKeys_clear clearNamed areOuterKeys⟩

end

end CypherSql.Sql
