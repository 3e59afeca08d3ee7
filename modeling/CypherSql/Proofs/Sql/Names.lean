import CypherSql.Proofs.Success
import CypherSql.Sql.Assembly
import Mathlib.Data.List.NodupEquivFin
import Mathlib.Data.List.Perm.Subperm

/-! # Names of columns

Columns that have no name get one that no other column has.  A free name is found because
there is one candidate more than there are names taken, and no two candidates are the same.

* `candidate` — the names that are tried, in this order.
* `freeName_eq_candidate` — a free name is the first candidate that is not taken.
* `Renamed` — a column and the same column with a name.
* `nameFrom_cons_ok` — what becomes of the first column.
* `nameFrom_apart` — a name that was not given is no other column's name.
* `withNames_ok` — every column gets a name, and no two get the same.
-/

namespace CypherSql.Sql

open CypherSql.Text (isIdentifier)

/-! ## Free names -/

theorem repr_injective {m n : Nat} (same : m.repr = n.repr) : m = n := by
  have digits : Nat.toDigits 10 m = Nat.toDigits 10 n := by
    rw [← Nat.toList_repr, ← Nat.toList_repr, same]
  rw [← Nat.ofDigitChars_ten_toDigits (n := m), digits, Nat.ofDigitChars_ten_toDigits]

theorem numbered_injective {base : String} {m n : Nat}
    (same : base ++ "_" ++ toString (m + 1) = base ++ "_" ++ toString (n + 1)) : m = n := by
  have suffixes := congrArg String.toList same
  simp only [String.toList_append, List.append_assoc, List.append_cancel_left_eq] at suffixes
  have := repr_injective (String.toList_inj.mp suffixes)
  omega

theorem base_ne_numbered (base : String) (n : Nat) : base ≠ base ++ "_" ++ toString (n + 1) := by
  intro same
  have lengths := congrArg String.length same
  simp only [String.length_append] at lengths
  have : "_".length = 1 := rfl
  omega

/-- What is tried as a name: the base, then the base with the numbers from one on. -/
def candidate (base : String) : Nat → String
  | 0 => base
  | number + 1 => base ++ "_" ++ toString (number + 1)

theorem candidate_injective (base : String) : Function.Injective (candidate base) := by
  intro first second same
  cases first with
  | zero =>
    cases second with
    | zero => rfl
    | succ n => exact absurd same (base_ne_numbered base n)
  | succ m =>
    cases second with
    | zero => exact absurd same.symm (base_ne_numbered base m)
    | succ n => rw [numbered_injective same]

section

variable {taken : List String} {base : String} {number : Nat}

/-- The candidates before one are different names, so where all of them are taken there are no
more of them than taken names. -/
theorem number_le_length (before : ∀ earlier < number, candidate base earlier ∈ taken) :
    number ≤ taken.length := by
  have distinct : ((List.range number).map (candidate base)).Nodup :=
    List.nodup_range.map (candidate_injective base)
  have subset : (List.range number).map (candidate base) ⊆ taken := by
    intro name isOne
    obtain ⟨earlier, isEarlier, rfl⟩ := List.mem_map.mp isOne
    exact before earlier (List.mem_range.mp isEarlier)
  simpa using (List.subperm_of_subset distinct subset).length_le

variable (taken base) in
theorem exists_candidate : ∃ number, candidate base number ∉ taken ∧
    ∀ earlier < number, candidate base earlier ∈ taken := by
  have free : ∃ number, candidate base number ∉ taken := by
    by_contra occupied
    have all : ∀ earlier < taken.length + 1, candidate base earlier ∈ taken :=
      fun earlier _ => not_not.mp (not_exists.mp occupied earlier)
    have := number_le_length all
    omega
  exact ⟨Nat.find free, Nat.find_spec free, fun _ earlier => not_not.mp (Nat.find_min free earlier)⟩

theorem freeName_eq_candidate (free : candidate base number ∉ taken)
    (before : ∀ earlier < number, candidate base earlier ∈ taken) :
    freeName taken base = candidate base number := by
  have candidates : freeName taken base = (((List.range (taken.length + 1)).map
      (candidate base)).find? fun name => !taken.contains name).getD base := by
    rw [List.range_succ_eq_map, List.map_cons, List.map_map]
    rfl
  have inside := number_le_length before
  have found : (((List.range (taken.length + 1)).map (candidate base)).find?
      fun name => !taken.contains name) = some (candidate base number) := by
    rw [List.find?_eq_some_iff_getElem]
    refine ⟨by simpa using free, number, by simp; omega, by simp, fun earlier isEarlier => ?_⟩
    simpa using before earlier isEarlier
  rw [candidates, found, Option.getD_some]

variable (taken base) in
theorem freeName_not_mem : freeName taken base ∉ taken := by
  obtain ⟨number, free, before⟩ := exists_candidate taken base
  rw [freeName_eq_candidate free before]
  exact free

end

/-! ## Names for all columns -/

/-- The one column is the other with a name, which is its own if it had one. -/
structure Renamed (column named : Column) : Prop where
  expression : named.expression = column.expression
  aggregate : named.aggregate = column.aggregate
  kept : ∀ name, column.name = some name → named.name = some name
  isNamed : named.name.isSome = true

section

variable {taken : List String} {column : Column} {columns rest named : List Column}

theorem nameFrom_cons_named {name : String} (isName : column.name = some name) :
    nameFrom taken (column :: rest) = (nameFrom taken rest).map (column :: ·) := by
  conv_lhs => unfold nameFrom
  simp only [isName]
  cases nameFrom taken rest <;> rfl

theorem nameFrom_cons_derived (unnamed : column.name = none)
    (plain : isIdentifier (baseName column) = true) :
    nameFrom taken (column :: rest) =
      (nameFrom (freeName taken (baseName column) :: taken) rest).map
        ({ column with name := some (freeName taken (baseName column)) } :: ·) := by
  conv_lhs => unfold nameFrom
  simp only [unnamed, plain, if_true]
  cases nameFrom (freeName taken (baseName column) :: taken) rest <;> rfl

theorem nameFrom_cons_unnameable (unnamed : column.name = none)
    (odd : isIdentifier (baseName column) = false) :
    nameFrom taken (column :: rest) = .error (.missingColumnName column.expression.text) := by
  unfold nameFrom
  simp [unnamed, odd]

/-- The first column keeps its name, or it gets a free one that counts as taken for the columns
behind. -/
theorem nameFrom_cons_ok (succeeds : nameFrom taken (column :: rest) = .ok named) :
    (∃ name others, column.name = some name ∧ nameFrom taken rest = .ok others ∧
      named = column :: others) ∨
    ∃ others, column.name = none ∧ isIdentifier (baseName column) = true ∧
      nameFrom (freeName taken (baseName column) :: taken) rest = .ok others ∧
      named = { column with name := some (freeName taken (baseName column)) } :: others := by
  cases isName : column.name with
  | some name =>
    rw [nameFrom_cons_named isName] at succeeds
    obtain ⟨others, areOthers, rfl⟩ := map_eq_ok.mp succeeds
    exact .inl ⟨name, others, rfl, areOthers, rfl⟩
  | none =>
    cases plain : isIdentifier (baseName column) with
    | false => exact nomatch (nameFrom_cons_unnameable isName plain).symm.trans succeeds
    | true =>
      rw [nameFrom_cons_derived isName plain] at succeeds
      obtain ⟨others, areOthers, rfl⟩ := map_eq_ok.mp succeeds
      exact .inr ⟨others, rfl, rfl, areOthers, rfl⟩

theorem nameFrom_renamed (succeeds : nameFrom taken columns = .ok named) :
    List.Forall₂ Renamed columns named := by
  induction columns generalizing taken named with
  | nil =>
    obtain rfl := Except.ok.inj succeeds
    exact .nil
  | cons column rest ih =>
    obtain ⟨name, others, isName, areOthers, rfl⟩ | ⟨others, unnamed, -, areOthers, rfl⟩ :=
      nameFrom_cons_ok succeeds
    · exact .cons ⟨rfl, rfl, fun _ => id, by simp [isName]⟩ (ih areOthers)
    · exact .cons ⟨rfl, rfl, by simp [unnamed], rfl⟩ (ih areOthers)

/-- Of two columns one of which had no name, each paired with its named form, the names differ. -/
def NamedApart (one other : Column × Column) : Prop :=
  one.1.name = none ∨ other.1.name = none → one.2.name ≠ other.2.name

/-- A name that was not given was not taken, and it is no other column's name. -/
theorem nameFrom_apart (succeeds : nameFrom taken columns = .ok named)
    (known : columns.filterMap Column.name ⊆ taken) :
    (columns.zip named).Pairwise NamedApart ∧
      ∀ pair ∈ columns.zip named, pair.1.name = none →
        ∀ name, pair.2.name = some name → name ∉ taken := by
  induction columns generalizing taken named with
  | nil => exact ⟨.nil, nofun⟩
  | cons column rest ih =>
    obtain ⟨name, others, isName, areOthers, rfl⟩ | ⟨others, unnamed, -, areOthers, rfl⟩ :=
      nameFrom_cons_ok succeeds
    · rw [List.filterMap_cons_some isName] at known
      obtain ⟨apart, fresh⟩ := ih areOthers (List.subset_of_cons_subset known)
      refine ⟨.cons (fun other isOther => ?_) apart, List.forall_mem_cons.mpr ⟨?_, fresh⟩⟩
      · rintro (unnamed | unnamed) same
        · exact nomatch isName.symm.trans unnamed
        · exact fresh other isOther unnamed name (same.symm.trans isName) (known List.mem_cons_self)
      · exact fun unnamed => nomatch isName.symm.trans unnamed
    · have free := freeName_not_mem taken (baseName column)
      rw [List.filterMap_cons_none unnamed] at known
      obtain ⟨apart, fresh⟩ := ih areOthers (List.subset_cons_of_subset _ known)
      refine ⟨.cons (fun other isOther => ?_) apart, List.forall_mem_cons.mpr ⟨?_, ?_⟩⟩
      · intro _ same
        cases isGiven : other.1.name with
        | none => exact fresh other isOther isGiven _ same.symm List.mem_cons_self
        | some name =>
          -- A given name is taken from the start.
          have kept := (List.forall₂_zip (nameFrom_renamed areOthers) isOther).kept name isGiven
          obtain rfl := Option.some.inj (same.trans kept)
          have isColumn := (List.of_mem_zip isOther).1
          exact free (known (List.mem_filterMap.mpr ⟨other.1, isColumn, isGiven⟩))
      · rintro - name same
        obtain rfl := Option.some.inj same
        exact free
      · intro other isOther unnamed name isName
        exact mt (List.mem_cons_of_mem _) (fresh other isOther unnamed name isName)

/-- Names that were given differ by assumption, and all others do anyway. -/
theorem nodup_names_of_apart (renamed : List.Forall₂ Renamed columns named)
    (apart : (columns.zip named).Pairwise NamedApart)
    (distinct : (columns.filterMap Column.name).Nodup) : (named.map Column.name).Nodup := by
  have lengths := renamed.length_eq
  have given : (columns.zip named).Pairwise fun one other =>
      ∀ first, one.1.name = some first → ∀ second, other.1.name = some second → first ≠ second := by
    have apartColumns := List.pairwise_filterMap.mp distinct
    rwa [← List.map_fst_zip lengths.le, List.pairwise_map] at apartColumns
  rw [← List.map_snd_zip lengths.ge, List.map_map, List.Nodup, List.pairwise_map]
  refine (apart.and given).imp_of_mem fun {one other} isOne isOther ⟨differ, givenDiffer⟩ => ?_
  cases isFirst : one.1.name with
  | none => exact differ (.inl isFirst)
  | some first =>
    cases isSecond : other.1.name with
    | none => exact differ (.inr isSecond)
    | some second =>
      have keptFirst := (List.forall₂_zip renamed isOne).kept first isFirst
      have keptSecond := (List.forall₂_zip renamed isOther).kept second isSecond
      intro same
      exact givenDiffer first isFirst second isSecond
        (Option.some.inj (keptFirst.symm.trans (same.trans keptSecond)))

end

/-- Every column gets a name, its own if it has one, and when no given name occurs twice
then no name does. -/
theorem withNames_ok {columns named : List Column} (succeeds : withNames columns = .ok named)
    (distinct : (columns.filterMap Column.name).Nodup) :
    List.Forall₂ Renamed columns named ∧ (named.map Column.name).Nodup := by
  have renamed := nameFrom_renamed succeeds
  obtain ⟨apart, -⟩ := nameFrom_apart succeeds (List.Subset.refl _)
  exact ⟨renamed, nodup_names_of_apart renamed apart distinct⟩

end CypherSql.Sql
