import Mathlib.Data.List.Forall2

/-! # What success says

A computation that may fail succeeds as a whole only where each of its steps does.
These lemmas take a successful computation apart, so that no proof has to open it.
-/

namespace CypherSql

variable {ε δ α β : Type}

theorem ok_bind (value : α) (next : α → Except ε β) : (Except.ok value >>= next) = next value :=
  rfl

theorem bind_eq_ok {first : Except ε α} {next : α → Except ε β} {result : β} :
    (first >>= next) = .ok result ↔ ∃ value, first = .ok value ∧ next value = .ok result := by
  cases first with
  | error error => simp [bind, Except.bind]
  | ok value => simp [bind, Except.bind]

theorem pure_eq_ok {value result : α} :
    (pure value : Except ε α) = .ok result ↔ value = result := by
  simp [pure, Except.pure]

/-- Where no further step can fail in some way, only the first one can. -/
theorem bind_eq_error_iff_of_ne {first : Except ε α} {next : α → Except ε β} {error : ε}
    (never : ∀ value, next value ≠ .error error) :
    (first >>= next) = .error error ↔ first = .error error := by
  cases first with
  | error other => simp [bind, Except.bind]
  | ok value => exact iff_of_false (never value) nofun

theorem map_eq_ok {convert : α → β} {computation : Except ε α} {result : β} :
    computation.map convert = .ok result ↔
      ∃ value, computation = .ok value ∧ convert value = result := by
  cases computation <;> simp [Except.map]

theorem map_eq_error {convert : α → β} {computation : Except ε α} {error : ε} :
    computation.map convert = .error error ↔ computation = .error error := by
  cases computation <;> simp [Except.map]

theorem mapError_eq_ok {convert : ε → δ} {computation : Except ε α} {result : α} :
    computation.mapError convert = .ok result ↔ computation = .ok result := by
  cases computation <;> simp [Except.mapError]

theorem toOption_eq_some {computation : Except ε α} {result : α} :
    computation.toOption = some result ↔ computation = .ok result := by
  cases computation <;> simp [Except.toOption]

theorem mapM_eq_ok {f : α → Except ε β} {xs : List α} {results : List β} :
    xs.mapM f = .ok results ↔ List.Forall₂ (fun x result => f x = .ok result) xs results := by
  induction xs generalizing results with
  | nil => rw [List.mapM_nil, pure_eq_ok, List.forall₂_nil_left_iff, eq_comm]
  | cons x xs ih =>
    rw [List.mapM_cons, bind_eq_ok, List.forall₂_cons_left_iff]
    constructor
    · rintro ⟨first, isFirst, rest⟩
      obtain ⟨others, areOthers, combined⟩ := bind_eq_ok.mp rest
      exact ⟨first, others, isFirst, ih.mp areOthers, (pure_eq_ok.mp combined).symm⟩
    · rintro ⟨first, others, isFirst, areOthers, rfl⟩
      exact ⟨first, isFirst, bind_eq_ok.mpr ⟨others, ih.mpr areOthers, rfl⟩⟩

/-- What every step of a fold that succeeds keeps, the whole fold keeps. -/
theorem foldlM_keeps {R : β → β → Prop} (refl : ∀ state, R state state)
    (trans : ∀ a b c, R a b → R b c → R a c) {f : β → α → Except ε β}
    (step : ∀ state x after, f state x = .ok after → R state after) {xs : List α}
    {state final : β} (folded : xs.foldlM f state = .ok final) : R state final := by
  induction xs generalizing state with
  | nil =>
    obtain rfl := pure_eq_ok.mp folded
    exact refl state
  | cons x xs ih =>
    rw [List.foldlM_cons] at folded
    obtain ⟨after, stepped, rest⟩ := bind_eq_ok.mp folded
    exact trans state after final (step state x after stepped) (ih rest)

/-- What the steps of a fold bring about one after the other, the whole fold brings about. -/
theorem foldlM_collects {γ : Type} {R : List γ → β → β → Prop} (nil : ∀ state, R [] state state)
    (append : ∀ xs ys a b c, R xs a b → R ys b c → R (xs ++ ys) a c) {f : β → α → Except ε β}
    {g : α → List γ} {xs : List α}
    (step : ∀ x ∈ xs, ∀ state after, f state x = .ok after → R (g x) state after)
    {state final : β} (folded : xs.foldlM f state = .ok final) : R (xs.flatMap g) state final := by
  induction xs generalizing state with
  | nil =>
    obtain rfl := pure_eq_ok.mp folded
    exact nil state
  | cons x xs ih =>
    rw [List.foldlM_cons] at folded
    obtain ⟨after, stepped, rest⟩ := bind_eq_ok.mp folded
    obtain ⟨stepFirst, stepRest⟩ := List.forall_mem_cons.mp step
    exact append _ _ state after final (stepFirst state after stepped) (ih stepRest rest)

end CypherSql
