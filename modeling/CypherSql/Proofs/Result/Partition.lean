import CypherSql.Proofs.Success
import CypherSql.Result.Row

/-! # Rows are divided among the items of a result

The cells of a row are dealt out from left to right, three, four or one at a time.  What is dealt
out can be put together again, so nothing is lost and nothing is read twice.  The one thing that can
be wrong with a row of the right length is a cell that should hold the name of a type.

* `Value.kind`, `Value.cells` — what a value is, and its fields in the order of the columns.
* `IsTypeCell`, `FirstMistyped` — the cells that hold names of types, and the first that does not.
* `valuesFrom_value`, `exists_value_or_mistyped` — what the cells of one item come to.
* `Partitions` — values of the right kinds whose fields are the row.
* `rowValues_ne_shape` — a row with as many cells is put together.
* `rowValues_partition` — what every row comes to.
-/

namespace CypherSql

/-! ## Values and their cells -/

def Value.kind : Value → ResultKind
  | node _ _ _ => .node
  | relationship _ _ _ _ => .relationship
  | scalar _ => .scalar

/-- The fields of a value in the order of its columns. -/
def Value.cells : Value → List Json
  | node id value type => [id, value, .text type]
  | relationship id start finish type => [id, start, finish, .text type]
  | scalar cell => [cell]

theorem Value.length_cells (value : Value) : value.cells.length = value.kind.width := by
  cases value <;> rfl

/-- The cell with this number is the last one of an item that is a node or a relationship. -/
def IsTypeCell (projections : List Projection) (index : Nat) : Prop :=
  ∃ before projection after, projections = before ++ projection :: after ∧
    projection.kind ≠ .scalar ∧ index + 1 = rowWidth (before ++ [projection])

/-- The first cell that should hold the name of a type and does not. -/
structure FirstMistyped (projections : List Projection) (cells : List Json) (index : Nat)
    (cell : Json) : Prop where
  isTypeCell : IsTypeCell projections index
  isThere : cells[index]? = some cell
  mistyped : ∀ name, cell ≠ .text name
  first : ∀ earlier < index, IsTypeCell projections earlier →
    ∃ name, cells[earlier]? = some (.text name)

theorem rowWidth_append (first second : List Projection) :
    rowWidth (first ++ second) = rowWidth first + rowWidth second := by
  induction first with
  | nil => simp [rowWidth]
  | cons projection first ih => rw [List.cons_append, rowWidth, rowWidth, ih, Nat.add_assoc]

theorem ResultKind.width_pos (kind : ResultKind) : 0 < kind.width := by
  cases kind <;> exact Nat.succ_pos _

/-- The cells of the first item come first, and those of the others behind them. -/
theorem isTypeCell_cons {projection : Projection} {projections : List Projection} {index : Nat} :
    IsTypeCell (projection :: projections) index ↔
      (projection.kind ≠ .scalar ∧ index + 1 = projection.kind.width) ∨
        ∃ later, index = projection.kind.width + later ∧ IsTypeCell projections later := by
  constructor
  · rintro ⟨before, item, after, isList, typed, last⟩
    cases before with
    | nil =>
      obtain ⟨rfl, rfl⟩ := List.cons.inj isList
      exact .inl ⟨typed, last⟩
    | cons first before =>
      obtain ⟨rfl, rfl⟩ := List.cons.inj isList
      rw [List.cons_append, rowWidth, rowWidth_append] at last
      have wide : 0 < rowWidth [item] := item.kind.width_pos
      refine .inr ⟨index - projection.kind.width, by omega, before, item, after, rfl, typed, ?_⟩
      rw [rowWidth_append]
      omega
  · rintro (⟨typed, last⟩ | ⟨later, rfl, before, item, after, rfl, typed, last⟩)
    · exact ⟨[], projection, projections, rfl, typed, last⟩
    · refine ⟨projection :: before, item, after, rfl, typed, ?_⟩
      rw [List.cons_append, rowWidth, ← last, Nat.add_assoc]

theorem FirstMistyped.unique {projections : List Projection} {cells : List Json}
    {index other : Nat} {cell otherCell : Json}
    (first : FirstMistyped projections cells index cell)
    (second : FirstMistyped projections cells other otherCell) :
    index = other ∧ cell = otherCell := by
  have notEarlier {i j : Nat} {c d : Json} (one : FirstMistyped projections cells i c)
      (two : FirstMistyped projections cells j d) : ¬i < j := by
    intro earlier
    obtain ⟨name, isName⟩ := two.first i earlier one.isTypeCell
    exact one.mistyped name (Option.some.inj (one.isThere.symm.trans isName))
  obtain rfl : index = other := by
    have := notEarlier first second
    have := notEarlier second first
    omega
  exact ⟨rfl, Option.some.inj (first.isThere.symm.trans second.isThere)⟩

/-! ## The cells of one item -/

section

variable {projection : Projection} {projections : List Projection} {cells rest : List Json}

/-- The fields of a value of the right kind are read as this value. -/
theorem valuesFrom_value (expected index : Nat) {value : Value}
    (isKind : value.kind = projection.kind) :
    valuesFrom expected index (projection :: projections) (value.cells ++ rest) =
      (valuesFrom expected (index + projection.kind.width) projections rest).map (value :: ·) := by
  obtain ⟨name, kind⟩ := projection
  obtain rfl : value.kind = kind := isKind
  cases value with
  | node id given type =>
    cases isRest : valuesFrom expected (index + 3) projections rest <;>
      simp [Value.cells, Value.kind, valuesFrom, typeOfCell, ResultKind.width, isRest] <;> rfl
  | relationship id start finish type =>
    cases isRest : valuesFrom expected (index + 4) projections rest <;>
      simp [Value.cells, Value.kind, valuesFrom, typeOfCell, ResultKind.width, isRest] <;> rfl
  | scalar cell =>
    cases isRest : valuesFrom expected (index + 1) projections rest <;>
      simp [Value.cells, Value.kind, valuesFrom, ResultKind.width, isRest] <;> rfl

/-- The last field of a node or relationship is the name of its type. -/
theorem Value.last_cell {value : Value} (typed : value.kind ≠ .scalar) {index : Nat}
    (last : index + 1 = value.kind.width) :
    ∃ name, value.cells[index]? = some (.text name) := by
  cases value with
  | node id given type =>
    obtain rfl : index = 2 := by simpa [Value.kind, ResultKind.width] using last
    exact ⟨type, rfl⟩
  | relationship id start finish type =>
    obtain rfl : index = 3 := by simpa [Value.kind, ResultKind.width] using last
    exact ⟨type, rfl⟩
  | scalar cell => exact absurd rfl typed

theorem typeOfCell_eq_error {index : Nat} {cell : Json} (mistyped : ∀ name, cell ≠ .text name) :
    typeOfCell index cell = .error (.invalidType index cell) := by
  cases cell with
  | text name => exact absurd rfl (mistyped name)
  | _ => rfl

/-- Enough cells for an item start with the fields of a value of its kind, or the last of them
should be the name of a type and is not. -/
theorem exists_value_or_mistyped (projection : Projection) {more : Nat}
    (length : cells.length = more + projection.kind.width) :
    (∃ (value : Value) (rest : List Json), value.kind = projection.kind ∧
      cells = value.cells ++ rest) ∨
      ∃ last cell, projection.kind ≠ .scalar ∧ last + 1 = projection.kind.width ∧
        cells[last]? = some cell ∧ (∀ name, cell ≠ .text name) ∧
        ∀ expected index projections, valuesFrom expected index (projection :: projections) cells =
          .error (.invalidType (index + last) cell) := by
  obtain ⟨name, kind⟩ := projection
  cases kind with
  | node =>
    obtain ⟨id, cells, rfl⟩ := List.exists_of_length_succ cells length
    obtain ⟨given, cells, rfl⟩ := List.exists_of_length_succ cells (Nat.succ.inj length)
    obtain ⟨type, rest, rfl⟩ :=
      List.exists_of_length_succ cells (Nat.succ.inj (Nat.succ.inj length))
    by_cases typed : ∃ name, type = .text name
    · obtain ⟨name, rfl⟩ := typed
      exact .inl ⟨.node id given name, rest, rfl, rfl⟩
    · have mistyped : ∀ name, type ≠ .text name := not_exists.mp typed
      refine .inr ⟨2, type, nofun, rfl, rfl, mistyped, fun expected index projections => ?_⟩
      simp only [valuesFrom, typeOfCell_eq_error mistyped]
      rfl
  | relationship =>
    obtain ⟨id, cells, rfl⟩ := List.exists_of_length_succ cells length
    obtain ⟨start, cells, rfl⟩ := List.exists_of_length_succ cells (Nat.succ.inj length)
    obtain ⟨finish, cells, rfl⟩ :=
      List.exists_of_length_succ cells (Nat.succ.inj (Nat.succ.inj length))
    obtain ⟨type, rest, rfl⟩ :=
      List.exists_of_length_succ cells (Nat.succ.inj (Nat.succ.inj (Nat.succ.inj length)))
    by_cases typed : ∃ name, type = .text name
    · obtain ⟨name, rfl⟩ := typed
      exact .inl ⟨.relationship id start finish name, rest, rfl, rfl⟩
    · have mistyped : ∀ name, type ≠ .text name := not_exists.mp typed
      refine .inr ⟨3, type, nofun, rfl, rfl, mistyped, fun expected index projections => ?_⟩
      simp only [valuesFrom, typeOfCell_eq_error mistyped]
      rfl
  | scalar =>
    obtain ⟨cell, rest, rfl⟩ := List.exists_of_length_succ cells length
    exact .inl ⟨.scalar cell, rest, rfl, rfl⟩

end

/-! ## The cells of a row -/

/-- The values have the kinds of the items, and their fields one after the other are the cells. -/
@[mk_iff]
structure Partitions (projections : List Projection) (cells : List Json) (values : List Value) :
    Prop where
  kinds : values.map Value.kind = projections.map Projection.kind
  cells : values.flatMap Value.cells = cells

section

variable {projection : Projection} {projections : List Projection} {cells : List Json}
  {values : List Value}

theorem Partitions.cons {value : Value} (isKind : value.kind = projection.kind)
    (partitions : Partitions projections cells values) :
    Partitions (projection :: projections) (value.cells ++ cells) (value :: values) where
  kinds := by rw [List.map_cons, List.map_cons, isKind, partitions.kinds]
  cells := by rw [List.flatMap_cons, partitions.cells]

/-- Values of the right kinds are values of the items one by one. -/
theorem Partitions.of_cons (partitions : Partitions (projection :: projections) cells values) :
    ∃ value others rest, values = value :: others ∧ cells = value.cells ++ rest ∧
      value.kind = projection.kind ∧ Partitions projections rest others := by
  obtain ⟨kinds, rfl⟩ := partitions
  obtain ⟨value, others, rfl, isKind, areKinds⟩ := List.map_eq_cons_iff.mp kinds
  exact ⟨value, others, others.flatMap Value.cells, rfl, List.flatMap_cons, isKind, areKinds, rfl⟩

theorem Partitions.length (partitions : Partitions projections cells values) :
    cells.length = rowWidth projections := by
  induction projections generalizing cells values with
  | nil =>
    obtain ⟨kinds, rfl⟩ := partitions
    obtain rfl := List.map_eq_nil_iff.mp kinds
    rfl
  | cons projection projections ih =>
    obtain ⟨value, others, rest, rfl, rfl, isKind, others⟩ := partitions.of_cons
    rw [List.length_append, value.length_cells, isKind, ih others, rowWidth]

/-- Where values are, every cell that should hold the name of a type does. -/
theorem Partitions.typed (partitions : Partitions projections cells values) {index : Nat}
    (isTypeCell : IsTypeCell projections index) : ∃ name, cells[index]? = some (.text name) := by
  induction projections generalizing cells values index with
  | nil =>
    obtain ⟨before, item, after, isList, -⟩ := isTypeCell
    exact absurd isList.symm (List.append_ne_nil_of_right_ne_nil _ (List.cons_ne_nil _ _))
  | cons projection projections ih =>
    obtain ⟨value, others, rest, rfl, rfl, isKind, others⟩ := partitions.of_cons
    obtain ⟨typed, last⟩ | ⟨later, rfl, isLater⟩ := isTypeCell_cons.mp isTypeCell
    · rw [← isKind] at typed last
      rw [List.getElem?_append_left (by rw [value.length_cells]; omega)]
      exact value.last_cell typed last
    · rw [List.getElem?_append_right (by rw [value.length_cells, isKind]; omega),
        value.length_cells, isKind, Nat.add_sub_cancel_left]
      exact ih others isLater

theorem Partitions.not_firstMistyped (partitions : Partitions projections cells values)
    {index : Nat} {cell : Json} : ¬FirstMistyped projections cells index cell := by
  intro first
  obtain ⟨name, isName⟩ := partitions.typed first.isTypeCell
  exact first.mistyped name (Option.some.inj (first.isThere.symm.trans isName))

/-- Values that partition the cells are what the cells are read as. -/
theorem Partitions.valuesFrom (partitions : Partitions projections cells values)
    (expected index : Nat) : valuesFrom expected index projections cells = .ok values := by
  induction projections generalizing cells values index with
  | nil =>
    obtain rfl := List.map_eq_nil_iff.mp partitions.kinds
    rfl
  | cons projection projections ih =>
    obtain ⟨value, others, rest, rfl, rfl, isKind, others⟩ := partitions.of_cons
    rw [valuesFrom_value expected index isKind, ih others]
    rfl

/-- The first item has its value, so what is wrong lies behind it. -/
theorem FirstMistyped.cons {value : Value} (isKind : value.kind = projection.kind) {index : Nat}
    {cell : Json} (first : FirstMistyped projections cells index cell) :
    FirstMistyped (projection :: projections) (value.cells ++ cells)
      (projection.kind.width + index) cell := by
  have behind (later : Nat) :
      (value.cells ++ cells)[projection.kind.width + later]? = cells[later]? := by
    rw [← isKind, ← value.length_cells, List.getElem?_append_right (Nat.le_add_right _ _),
      Nat.add_sub_cancel_left]
  refine ⟨isTypeCell_cons.mpr (.inr ⟨index, rfl, first.isTypeCell⟩),
    (behind index).trans first.isThere, first.mistyped, fun earlier before isEarlier => ?_⟩
  obtain ⟨typed, last⟩ | ⟨later, rfl, isLater⟩ := isTypeCell_cons.mp isEarlier
  · rw [← isKind] at typed last
    rw [List.getElem?_append_left (by rw [value.length_cells]; omega)]
    exact value.last_cell typed last
  · rw [behind later]
    exact first.first later (Nat.lt_of_add_lt_add_left before) isLater

/-- The last cell of the first item is wrong, and no cell before it should hold the name of a
type. -/
theorem FirstMistyped.head (typed : projection.kind ≠ .scalar) {last : Nat} {cell : Json}
    (isLast : last + 1 = projection.kind.width) (isThere : cells[last]? = some cell)
    (mistyped : ∀ name, cell ≠ .text name) :
    FirstMistyped (projection :: projections) cells last cell := by
  refine ⟨isTypeCell_cons.mpr (.inl ⟨typed, isLast⟩), isThere, mistyped,
    fun earlier before isEarlier => ?_⟩
  obtain ⟨-, same⟩ | ⟨later, rfl, -⟩ := isTypeCell_cons.mp isEarlier
  · omega
  · omega

/-- As many cells as the items ask for are partitioned, or one that should hold the name of a type
does not, and the first such cell is reported. -/
theorem valuesFrom_or (expected index : Nat) (length : cells.length = rowWidth projections) :
    (∃ values, Partitions projections cells values) ∨
      ∃ offset cell, FirstMistyped projections cells offset cell ∧
        valuesFrom expected index projections cells =
          .error (.invalidType (index + offset) cell) := by
  induction projections generalizing cells index with
  | nil =>
    obtain rfl := List.eq_nil_of_length_eq_zero length
    exact .inl ⟨[], rfl, rfl⟩
  | cons projection projections ih =>
    rw [rowWidth, Nat.add_comm] at length
    obtain ⟨value, rest, isKind, rfl⟩ | ⟨last, cell, typed, isLast, isThere, mistyped, fails⟩ :=
      exists_value_or_mistyped projection length
    -- The first item has its value, so the first cell that is wrong lies behind it, if any.
    · rw [List.length_append, value.length_cells, isKind, Nat.add_comm] at length
      obtain ⟨others, partitions⟩ | ⟨offset, cell, first, fails⟩ :=
        ih (index + projection.kind.width) (Nat.add_right_cancel length)
      · exact .inl ⟨value :: others, partitions.cons isKind⟩
      · refine .inr ⟨projection.kind.width + offset, cell, first.cons isKind, ?_⟩
        rw [valuesFrom_value expected index isKind, fails, Nat.add_assoc]
        rfl
    · exact .inr ⟨last, cell, .head typed isLast isThere mistyped, fails _ _ _⟩

/-- What becomes of a row of the right length. -/
theorem rowValues_or (length : cells.length = rowWidth projections) :
    (∃ values, Partitions projections cells values ∧ rowValues projections cells = .ok values) ∨
      ∃ index cell, FirstMistyped projections cells index cell ∧
        rowValues projections cells = .error (.invalidType index cell) := by
  unfold rowValues
  rw [if_neg (not_not_intro length)]
  obtain ⟨values, partitions⟩ | ⟨index, cell, first, fails⟩ :=
    valuesFrom_or (rowWidth projections) 0 length
  · exact .inl ⟨values, partitions, partitions.valuesFrom _ _⟩
  · exact .inr ⟨index, cell, first, by rw [fails, Nat.zero_add]⟩

/-- A row of another length has no values. -/
theorem rowValues_of_length_ne (length : cells.length ≠ rowWidth projections) :
    rowValues projections cells = .error (.shape (rowWidth projections) cells.length) :=
  if_pos length

/-- A row with as many cells as the items ask for never has the wrong shape. -/
theorem rowValues_ne_shape (length : cells.length = rowWidth projections) (expected found : Nat) :
    rowValues projections cells ≠ .error (.shape expected found) := by
  obtain ⟨values, -, reads⟩ | ⟨index, cell, -, fails⟩ := rowValues_or length
  · rw [reads]
    exact nofun
  · rw [fails]
    exact nofun

theorem rowValues_eq_ok :
    rowValues projections cells = .ok values ↔ Partitions projections cells values := by
  constructor
  · intro reads
    by_cases length : cells.length = rowWidth projections
    · obtain ⟨others, partitions, readsOthers⟩ | ⟨index, cell, -, fails⟩ := rowValues_or length
      · obtain rfl : others = values := Except.ok.inj (readsOthers.symm.trans reads)
        exact partitions
      · exact nomatch fails.symm.trans reads
    · exact nomatch (rowValues_of_length_ne length).symm.trans reads
  · intro partitions
    unfold rowValues
    rw [if_neg (not_not_intro partitions.length)]
    exact partitions.valuesFrom _ _

theorem rowValues_eq_error {error : RowError} :
    rowValues projections cells = .error error ↔
      (cells.length ≠ rowWidth projections ∧
        error = .shape (rowWidth projections) cells.length) ∨
      (cells.length = rowWidth projections ∧ ∃ index cell,
        FirstMistyped projections cells index cell ∧ error = .invalidType index cell) := by
  by_cases length : cells.length = rowWidth projections
  · simp only [length, ne_eq, not_true_eq_false, false_and, false_or, true_and]
    obtain ⟨values, partitions, reads⟩ | ⟨index, cell, first, fails⟩ := rowValues_or length
    · rw [reads]
      refine iff_of_false nofun ?_
      rintro ⟨index, cell, first, -⟩
      exact partitions.not_firstMistyped first
    · rw [fails]
      constructor
      · intro same
        exact ⟨index, cell, first, (Except.error.inj same).symm⟩
      · rintro ⟨other, otherCell, second, rfl⟩
        obtain ⟨rfl, rfl⟩ := first.unique second
        rfl
  · simp only [length, ne_eq, not_false_eq_true, true_and, false_and, or_false]
    rw [rowValues_of_length_ne length, Except.error.injEq, eq_comm]

end

/-- A row has values exactly if it has as many cells as the items ask for and the last cell of
every node and relationship is a text.  The values are those of the kinds of the items whose fields
one after the other are the row.  A row without values has another length, or the first cell that
should hold the name of a type and does not is reported. -/
theorem rowValues_partition (projections : List Projection) (cells : List Json) :
    ((∃ values, rowValues projections cells = .ok values) ↔
      cells.length = rowWidth projections ∧
        ∀ index, IsTypeCell projections index → ∃ name, cells[index]? = some (.text name)) ∧
    (∀ values, rowValues projections cells = .ok values ↔
      values.map Value.kind = projections.map Projection.kind ∧
        values.flatMap Value.cells = cells) ∧
    ∀ error, rowValues projections cells = .error error ↔
      (cells.length ≠ rowWidth projections ∧
        error = .shape (rowWidth projections) cells.length) ∨
      (cells.length = rowWidth projections ∧ ∃ index cell,
        FirstMistyped projections cells index cell ∧ error = .invalidType index cell) := by
  refine ⟨⟨?_, ?_⟩, fun values => rowValues_eq_ok.trans (partitions_iff ..),
    fun error => rowValues_eq_error⟩
  · rintro ⟨values, reads⟩
    have partitions := rowValues_eq_ok.mp reads
    exact ⟨partitions.length, fun index => partitions.typed⟩
  · rintro ⟨length, typed⟩
    obtain ⟨values, -, reads⟩ | ⟨index, cell, first, -⟩ := rowValues_or length
    · exact ⟨values, reads⟩
    · obtain ⟨name, isName⟩ := typed index first.isTypeCell
      exact absurd (Option.some.inj (first.isThere.symm.trans isName)) (first.mistyped name)

end CypherSql
