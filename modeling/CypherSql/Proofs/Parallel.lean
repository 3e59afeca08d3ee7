import CypherSql.Proofs.Success

/-! # Two computations side by side

Two computations that may fail go alike when both fail or both succeed, with errors that are the
same for a reader who does not look at everything, and with values that are related.

* `Alike` — two computations go alike.
* `Alike.bind`, `Alike.foldlM_map` — steps that go alike one after the other.
-/

namespace CypherSql

variable {ε α β γ δ : Type}

/-- `seen` is what is seen of an error. -/
inductive Alike (seen : ε → ε) (Q : α → β → Prop) : Except ε α → Except ε β → Prop
  | error {error other : ε} (same : seen other = seen error) :
      Alike seen Q (.error error) (.error other)
  | ok {value : α} {other : β} (related : Q value other) : Alike seen Q (.ok value) (.ok other)

namespace Alike

variable {seen : ε → ε} {Q : α → β → Prop} {P : γ → δ → Prop} {first : Except ε α}
  {second : Except ε β}

theorem refl (result : Except ε α) : Alike seen Eq result result := by
  cases result with
  | error error => exact .error rfl
  | ok value => exact .ok rfl

theorem imp {Q' : α → β → Prop} (implies : ∀ value other, Q value other → Q' value other)
    (alike : Alike seen Q first second) : Alike seen Q' first second := by
  cases alike with
  | error same => exact .error same
  | ok related => exact .ok (implies _ _ related)

theorem trans {P : β → γ → Prop} {third : Except ε γ} (alike : Alike seen Q first second)
    (alikeThird : Alike seen P second third) :
    Alike seen (fun value last => ∃ other, Q value other ∧ P other last) first third := by
  cases alike with
  | error same =>
    cases alikeThird with
    | error sameThird => exact .error (sameThird.trans same)
  | ok related =>
    cases alikeThird with
    | ok relatedThird => exact .ok ⟨_, related, relatedThird⟩

/-- Where everything is seen of errors, they are the same for every reader. -/
theorem of_exact (alike : Alike id Q first second) : Alike seen Q first second := by
  cases alike with
  | error same => exact .error (congrArg seen same)
  | ok related => exact .ok related

theorem bind {next : α → Except ε γ} {next' : β → Except ε δ} (alike : Alike seen Q first second)
    (alikeNext : ∀ value other, Q value other → Alike seen P (next value) (next' other)) :
    Alike seen P (first >>= next) (second >>= next') := by
  cases alike with
  | error same => exact .error same
  | ok related => exact alikeNext _ _ related

theorem mapError {ζ : Type} {seen' : ζ → ζ} {convert : ε → ζ}
    (keeps : ∀ error other, seen other = seen error → seen' (convert other) = seen' (convert error))
    (alike : Alike seen Q first second) :
    Alike seen' Q (first.mapError convert) (second.mapError convert) := by
  cases alike with
  | error same => exact .error (keeps _ _ same)
  | ok related => exact .ok related

/-- What the success of the first one says holds beside the relation. -/
theorem and_left {P : α → Prop} (holds : ∀ value, first = .ok value → P value)
    (alike : Alike seen Q first second) :
    Alike seen (fun value other => Q value other ∧ P value) first second := by
  cases alike with
  | error same => exact .error same
  | ok related => exact .ok ⟨related, holds _ rfl⟩

/-- Steps over a list and its image go alike when each of them does. -/
theorem foldlM_map {f : α → γ → Except ε α} {g : β → δ → Except ε β} (convert : γ → δ)
    {xs : List γ}
    (step : ∀ x ∈ xs, ∀ state other, Q state other →
      Alike seen Q (f state x) (g other (convert x)))
    {state : α} {other : β} (start : Q state other) :
    Alike seen Q (xs.foldlM f state) ((xs.map convert).foldlM g other) := by
  induction xs generalizing state other with
  | nil => exact .ok start
  | cons x xs ih =>
    obtain ⟨stepFirst, stepRest⟩ := List.forall_mem_cons.mp step
    rw [List.map_cons, List.foldlM_cons, List.foldlM_cons]
    exact (stepFirst _ _ start).bind fun _ _ later => ih stepRest later

end Alike

end CypherSql
