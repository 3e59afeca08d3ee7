import CypherSql.Proofs.Sql.Keys
import CypherSql.Proofs.Sql.Names
import Mathlib.Logic.Function.Iterate

/-! # Naming columns step by step

Columns are passed one after the other, and for one without a name the candidates are tried one
after the other until one of them is not taken.  Nothing bounds that search but the names that can
be taken: those given to columns and those made up before, which are fewer than the columns.

* `Naming`, `Naming.step` — how far the naming has come, and what happens next.
* `Naming.Bounded` — what every step keeps.
* `Naming.remaining` — what every step lowers.
* `Naming.outcome` — what no step changes.
* `Naming.run_start` — naming ends, and with the names that `withNames` gives.
* `nameFrom_eq_error` — naming fails at the first column for which no name can be made up.
* `withNames_apart` — what the naming of columns comes to.
-/

namespace CypherSql.Sql

open CypherSql.Text (isIdentifier)

/-! ## Steps -/

/-- How far the naming of columns has come. -/
inductive Naming where
  /-- The columns up to here have names, and the next one is looked at. -/
  | passing (taken : List String) (named rest : List Column)
  /-- The next column has no name, and the candidate with this number is tried for it. -/
  | trying (taken : List String) (named : List Column) (column : Column) (number : Nat)
      (rest : List Column)
  | stopped (result : Except GenerationError (List Column))

namespace Naming

/-- The given names are taken from the start. -/
def start (columns : List Column) : Naming :=
  passing (columns.filterMap Column.name) [] columns

def step : Naming → Naming
  | passing _ named [] => stopped (.ok named)
  | passing taken named (column :: rest) =>
    match column.name with
    | some _ => passing taken (named ++ [column]) rest
    | none =>
      if isIdentifier (baseName column) then trying taken named column 0 rest
      else stopped (.error (.missingColumnName column.expression.text))
  | trying taken named column number rest =>
    let name := candidate (baseName column) number
    -- The search has no bound: it ends where a candidate is not taken.
    if name ∈ taken then trying taken named column (number + 1) rest
    else passing (name :: taken) (named ++ [{ column with name := some name }]) rest
  | stopped result => stopped result

/-! ### What every step keeps -/

def unnamed (columns : List Column) : Nat :=
  columns.countP fun column => column.name.isNone

/-- There is room for a name for every column that still needs one, and the candidates that were
passed over are taken. -/
def Bounded (limit : Nat) : Naming → Prop
  | passing taken _ rest => taken.length + unnamed rest ≤ limit
  | trying taken _ column number rest => taken.length + unnamed rest < limit ∧
      ∀ earlier < number, candidate (baseName column) earlier ∈ taken
  | stopped _ => True

/-- How many steps may be left. -/
def remaining (limit : Nat) : Naming → Nat
  | passing _ _ rest => rest.length * (limit + 1) + 1
  | trying _ _ _ number rest => rest.length * (limit + 1) + 1 + (limit - number)
  | stopped _ => 0

/-- What the columns come to from here on. -/
def outcome : Naming → Except GenerationError (List Column)
  | passing taken named rest => (nameFrom taken rest).map (named ++ ·)
  | trying taken named column _ rest =>
    let name := freeName taken (baseName column)
    (nameFrom (name :: taken) rest).map (named ++ { column with name := some name } :: ·)
  | stopped result => result

section

variable {limit : Nat} {state : Naming}

theorem unnamed_cons_named {column : Column} {rest : List Column} {name : String}
    (isName : column.name = some name) : unnamed (column :: rest) = unnamed rest := by
  simp [unnamed, isName]

theorem unnamed_cons_unnamed {column : Column} {rest : List Column} (isNone : column.name = none) :
    unnamed (column :: rest) = unnamed rest + 1 := by
  simp [unnamed, isNone]

theorem Bounded.step (bounded : state.Bounded limit) : state.step.Bounded limit := by
  fun_cases Naming.step state with
  | case1 => trivial
  | case2 taken named column rest name isName =>
    rw [Bounded, unnamed_cons_named isName] at bounded
    exact bounded
  | case3 taken named column rest isNone =>
    rw [Bounded, unnamed_cons_unnamed isNone] at bounded
    exact ⟨by omega, by simp⟩
  | case4 => trivial
  | case5 taken named column number rest name isTaken =>
    -- One more candidate has been passed over.
    obtain ⟨room, before⟩ := bounded
    refine ⟨room, fun earlier isEarlier => ?_⟩
    obtain isBefore | rfl := Nat.lt_succ_iff_lt_or_eq.mp isEarlier
    · exact before earlier isBefore
    · exact isTaken
  | case6 taken named column number rest name free =>
    -- The room that was left goes to the name that was found.
    obtain ⟨room, -⟩ := bounded
    rw [Bounded, List.length_cons]
    omega
  | case7 => trivial

/-- While a name is looked for, fewer candidates were passed over than there is room for names. -/
theorem Bounded.number_lt {taken : List String} {named rest : List Column} {column : Column}
    {number : Nat} (bounded : (trying taken named column number rest).Bounded limit) :
    number < limit := by
  obtain ⟨room, before⟩ := bounded
  have := number_le_length before
  omega

theorem Bounded.remaining_step (bounded : state.Bounded limit) :
    state.step.remaining limit ≤ state.remaining limit - 1 := by
  fun_cases Naming.step state with
  | case1 => exact Nat.zero_le _
  | case2 taken named column rest name isName =>
    simp only [remaining, List.length_cons, Nat.succ_mul]
    omega
  | case3 taken named column rest isNone =>
    simp only [remaining, List.length_cons, Nat.succ_mul]
    omega
  | case4 => exact Nat.zero_le _
  | case5 taken named column number rest name isTaken =>
    have := bounded.number_lt
    simp only [remaining]
    omega
  | case6 taken named column number rest name free =>
    have := bounded.number_lt
    simp only [remaining]
    omega
  | case7 => exact Nat.zero_le _

theorem Bounded.outcome_step (bounded : state.Bounded limit) :
    state.step.outcome = state.outcome := by
  fun_cases Naming.step state with
  | case1 taken named => simp [outcome, nameFrom, Except.map]
  | case2 taken named column rest name isName =>
    rw [outcome, outcome, nameFrom_cons_named isName]
    cases nameFrom taken rest <;> simp [Except.map]
  | case3 taken named column rest isNone plain =>
    rw [outcome, outcome, nameFrom_cons_derived isNone plain]
    cases nameFrom (freeName taken (baseName column) :: taken) rest <;> rfl
  | case4 taken named column rest isNone odd =>
    rw [outcome, outcome, nameFrom_cons_unnameable isNone (Bool.eq_false_iff.mpr odd)]
    rfl
  | case5 => rfl
  | case6 taken named column number rest name free =>
    obtain ⟨-, before⟩ := bounded
    rw [outcome, outcome, freeName_eq_candidate free before]
    cases nameFrom (name :: taken) rest <;> simp [Except.map, name]
  | case7 => rfl

/-! ### Runs -/

theorem Bounded.run (bounded : state.Bounded limit) (count : Nat) :
    (Naming.step^[count] state).Bounded limit ∧
      (Naming.step^[count] state).remaining limit ≤ state.remaining limit - count ∧
      (Naming.step^[count] state).outcome = state.outcome := by
  induction count with
  | zero => exact ⟨bounded, Nat.le_refl _, rfl⟩
  | succ count ih =>
    obtain ⟨still, fewer, same⟩ := ih
    rw [Function.iterate_succ_apply']
    refine ⟨still.step, ?_, still.outcome_step.trans same⟩
    have := still.remaining_step
    omega

theorem eq_stopped (spent : state.remaining limit = 0) : state = stopped state.outcome := by
  cases state with
  | passing => exact absurd spent (Nat.succ_ne_zero _)
  | trying => simp [remaining] at spent
  | stopped => rfl

end

theorem bounded_start (columns : List Column) : (start columns).Bounded columns.length := by
  rw [start, Bounded]
  induction columns with
  | nil => simp [unnamed]
  | cons column rest ih =>
    cases isName : column.name with
    | some name =>
      rw [List.filterMap_cons_some isName, unnamed_cons_named isName]
      simp only [List.length_cons]
      omega
    | none =>
      rw [List.filterMap_cons_none isName, unnamed_cons_unnamed isName, List.length_cons]
      omega

theorem outcome_start (columns : List Column) : (start columns).outcome = withNames columns := by
  rw [start, outcome, withNames]
  cases nameFrom (columns.filterMap Column.name) columns <;> simp [Except.map]

/-- However the names collide, naming ends after at most this many steps. -/
theorem run_start (columns : List Column) :
    step^[columns.length * (columns.length + 1) + 1] (start columns) =
      stopped (withNames columns) := by
  obtain ⟨-, spent, same⟩ := (bounded_start columns).run
    (columns.length * (columns.length + 1) + 1)
  have stops := eq_stopped (Nat.le_zero.mp (spent.trans_eq (Nat.sub_self _)))
  rw [stops, same, outcome_start]

end Naming

/-! ## Names that are made up -/

theorem isIdentifier_append {text more : String} (plain : isIdentifier text = true)
    (continues : isWord more = true) : isIdentifier (text ++ more) = true := by
  unfold isIdentifier isWord at *
  rw [String.toList_append]
  cases letters : text.toList with
  | nil => simp [letters] at plain
  | cons first rest =>
    rw [letters] at plain
    obtain ⟨starts, others⟩ := Bool.and_eq_true_iff.mp plain
    simp [starts, others, continues]

theorem isIdentifier_candidate {base : String} (plain : isIdentifier base = true) (number : Nat) :
    isIdentifier (candidate base number) = true := by
  cases number with
  | zero => exact plain
  | succ number =>
    have marked : isIdentifier (base ++ "_") = true := isIdentifier_append plain (by decide)
    exact isIdentifier_append marked (isWord_of_isNumber (isNumber_toString (number + 1)))

theorem isIdentifier_freeName {base : String} (plain : isIdentifier base = true)
    (taken : List String) : isIdentifier (freeName taken base) = true := by
  obtain ⟨number, free, before⟩ := exists_candidate taken base
  rw [freeName_eq_candidate free before]
  exact isIdentifier_candidate plain number

/-- The column has no name, and what would be made up for it is none. -/
def unnameable (column : Column) : Bool :=
  column.name.isNone && !isIdentifier (baseName column)

/-- If the column had no name, the one it has now is plain. -/
def NamedPlainly (column named : Column) : Prop :=
  column.name = none → ∀ name, named.name = some name → isIdentifier name = true

section

variable {taken : List String} {columns named : List Column}

theorem nameFrom_plain (succeeds : nameFrom taken columns = .ok named) :
    List.Forall₂ NamedPlainly columns named := by
  induction columns generalizing taken named with
  | nil =>
    obtain rfl := Except.ok.inj succeeds
    exact .nil
  | cons column rest ih =>
    obtain ⟨name, others, isName, areOthers, rfl⟩ | ⟨others, unnamed, plain, areOthers, rfl⟩ :=
      nameFrom_cons_ok succeeds
    · exact .cons (fun unnamed => nomatch isName.symm.trans unnamed) (ih areOthers)
    · refine .cons (fun _ name isName => ?_) (ih areOthers)
      obtain rfl := Option.some.inj isName
      exact isIdentifier_freeName plain taken

theorem nameFrom_eq_error {error : GenerationError} :
    nameFrom taken columns = .error error ↔
      ∃ column, columns.find? unnameable = some column ∧
        error = .missingColumnName column.expression.text := by
  induction columns generalizing taken with
  | nil => exact iff_of_false nofun nofun
  | cons column rest ih =>
    cases isName : column.name with
    | some name =>
      rw [nameFrom_cons_named isName, map_eq_error, ih,
        List.find?_cons_of_neg (by simp [unnameable, isName])]
    | none =>
      cases plain : isIdentifier (baseName column) with
      | true =>
        rw [nameFrom_cons_derived isName plain, map_eq_error, ih,
          List.find?_cons_of_neg (by simp [unnameable, plain])]
      | false =>
        rw [nameFrom_cons_unnameable isName plain,
          List.find?_cons_of_pos (by simp [unnameable, isName, plain])]
        simp [eq_comm]

theorem exists_nameFrom_iff : (∃ named, nameFrom taken columns = .ok named) ↔
    ∀ column ∈ columns, unnameable column = false := by
  constructor
  · rintro ⟨named, succeeds⟩ column isOne
    by_contra odd
    have found := List.find?_isSome.mpr ⟨column, isOne, Bool.of_not_eq_false odd⟩
    obtain ⟨first, isFirst⟩ := Option.isSome_iff_exists.mp found
    exact nomatch succeeds.symm.trans (nameFrom_eq_error.mpr ⟨first, isFirst, rfl⟩)
  · intro nameable
    cases result : nameFrom taken columns with
    | ok named => exact ⟨named, rfl⟩
    | error error =>
      obtain ⟨column, isFirst, -⟩ := nameFrom_eq_error.mp result
      have odd := List.find?_some isFirst
      exact nomatch (nameable column (List.mem_of_find?_eq_some isFirst)).symm.trans odd

end

/-! ## All columns -/

/-- The columns are as they were and all have names.  A name that was not given is plain, and no
other column has it. -/
structure Named (columns named : List Column) : Prop where
  renamed : List.Forall₂ Renamed columns named
  plain : List.Forall₂ NamedPlainly columns named
  apart : (columns.zip named).Pairwise NamedApart
  distinct : (columns.filterMap Column.name).Nodup → (named.map Column.name).Nodup

theorem Named.of_withNames {columns named : List Column}
    (succeeds : withNames columns = .ok named) : Named columns named where
  renamed := nameFrom_renamed succeeds
  plain := nameFrom_plain succeeds
  apart := (nameFrom_apart succeeds (List.Subset.refl _)).1
  distinct := fun distinct => (withNames_ok succeeds distinct).2

/-- The search for names ends, whichever names are given and made up, and no number that is tried
reaches the number of columns.  Naming succeeds exactly if a name can be made up for every column
that has none.  Then no name that was made up is another column's, and otherwise the first column
for which none can be made up is reported. -/
theorem withNames_apart (columns : List Column) :
    Naming.step^[columns.length * (columns.length + 1) + 1] (.start columns) =
      .stopped (withNames columns) ∧
    (∀ count taken named column number rest,
      Naming.step^[count] (.start columns) = .trying taken named column number rest →
        number < columns.length) ∧
    ((∃ named, withNames columns = .ok named) ↔
      ∀ column ∈ columns, unnameable column = false) ∧
    (∀ named, withNames columns = .ok named → Named columns named) ∧
    ∀ error, withNames columns = .error error ↔
      ∃ column, columns.find? unnameable = some column ∧
        error = .missingColumnName column.expression.text := by
  refine ⟨Naming.run_start columns, fun count taken named column number rest isState => ?_,
    exists_nameFrom_iff, fun _ => .of_withNames, fun _ => nameFrom_eq_error⟩
  have bounded := ((Naming.bounded_start columns).run count).1
  rw [isState] at bounded
  exact bounded.number_lt

/-- The name made up for the second column would be that of the third one, and the next name with a
number is given to the fourth. -/
def collidingColumns : List Column :=
  ["value", "value", "value_1"].map
      (fun property => .plain [.field (.outer ⟨.node, 0⟩) [property]]) ++
    [⟨[.star], some (.count false), some "a0_value_2"⟩,
      .plain [.field (.outer ⟨.node, 0⟩) ["value"]]]

theorem withNames_apart_colliding :
    ∃ named, withNames collidingColumns = .ok named ∧
      named.map Column.name =
        ["a0_value", "a0_value_1", "a0_value_1_1", "a0_value_2", "a0_value_3"].map some ∧
      Named collidingColumns named := by
  obtain ⟨-, -, succeeds, isNamed, -⟩ := withNames_apart collidingColumns
  obtain ⟨named, names⟩ := succeeds.mpr (by decide)
  refine ⟨named, names, ?_, isNamed named names⟩
  have evaluated : (withNames collidingColumns).map (List.map Column.name) =
      .ok (["a0_value", "a0_value_1", "a0_value_1_1", "a0_value_2", "a0_value_3"].map some) := by
    rfl
  rw [names] at evaluated
  exact Except.ok.inj evaluated

end CypherSql.Sql
