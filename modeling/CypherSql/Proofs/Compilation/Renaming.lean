import CypherSql.Proofs.Compilation.Closed
import CypherSql.Proofs.Compilation.Following

/-! # Queries under other names

Where every bare name is a variable or was given by `WITH`, no name gets into the statement of a
query, so the query is compiled to the same statement under other names.

* `Run.rename_eq` — no name is left in predicates and columns.
* `Query.compile_rename` — a query and the same query under other names.
-/

namespace CypherSql

open CypherSql.Cypher
open CypherSql.Sql (Column Fragment Lexeme)

namespace Compilation

/-! ## Known names -/

/-- The words of a lexeme stay as they are. -/
def KeepsWords (σ : String → String) (lexeme : Lexeme) : Prop :=
  lexeme.rename σ = lexeme

theorem keepsWords_ofRows (σ : String → String) : OfRows (KeepsWords σ) where
  fixed lexeme isFixed := by cases lexeme <;> first | rfl | contradiction
  column _ _ _ _ _ := rfl

theorem rename_eq_of_keepsWords {σ : String → String} {fragment : Fragment}
    (keeps : ∀ lexeme ∈ fragment, KeepsWords σ lexeme) : fragment.rename σ = fragment :=
  (List.map_congr_left keeps).trans (List.map_id' fragment)

theorem mem_value {column : Column} {lexeme : Lexeme} (isOne : lexeme ∈ column.expression) :
    lexeme ∈ column.value := by
  unfold Column.value
  split
  · exact List.mem_append_left _ (List.mem_append_right _ isOne)
  · exact isOne

/-- Where every bare name is known, no name is left in predicates and columns. -/
theorem Run.rename_eq {settings : Settings} {query : Query} {final : Draft}
    (run : Run (.start settings) query.events final) (resolves : query.resolves = true)
    (σ : String → String) :
    final.progress.predicates.rename σ = final.progress.predicates ∧
      final.layout.columns.map (Layout.renameColumn σ) = final.layout.columns := by
  have accepts : ∀ stage ∈ query.stages, ∀ draft : Draft,
      Sound settings (Lexemes (KeepsWords σ)) stage.known draft.progress → draft.Within final →
        Accepts draft.progress.bindings draft.progress.graph stage.event.ingredients
          (KeepsWords σ) := by
    intro stage isStage draft sound _
    constructor
    case slot => exact fun _ _ _ => rfl
    case word =>
      intro name isOne unbound unnamed
      have ofStage := List.all_eq_true.mp (List.all_eq_true.mp resolves stage isStage) _ isOne
      exact absurd unnamed (sound.not_word ofStage unbound)
    case path => exact fun _ _ _ _ _ _ => rfl
    case text => exact fun _ _ => ⟨rfl, fun _ => rfl⟩
    case test => exact fun _ _ _ _ => rfl
  -- Words are written for unknown names only.
  obtain ⟨inFragments, inColumns⟩ := run.draft_lexemes (keepsWords_ofRows σ) accepts
  constructor
  · have fragments : final.progress.predicates.fragments.map (Fragment.rename σ) =
        final.progress.predicates.fragments :=
      (List.map_congr_left fun fragment isOne =>
        rename_eq_of_keepsWords (inFragments fragment isOne)).trans (List.map_id' _)
    rw [Predicates.rename, fragments]
  · refine (List.map_congr_left fun column isOne => ?_).trans (List.map_id' _)
    have expression := rename_eq_of_keepsWords fun lexeme isIn =>
      inColumns column isOne lexeme (mem_value isIn)
    rw [Layout.renameColumn, expression]

end Compilation

open Compilation

/-! ## Whole queries -/

/-- The same SQL, and results of the same kinds. -/
def CompiledQuery.SameOutput (compiled compiled' : CompiledQuery) : Prop :=
  compiled'.sql = compiled.sql ∧
    compiled'.projections.map Projection.kind = compiled.projections.map Projection.kind

/-- The names of variables do not matter where every bare name of a query that is compiled is known:
under other names the query is compiled to the same SQL and to results of the same kinds, or it
fails with the same error up to the names and texts that the error quotes. -/
theorem Cypher.Query.compile_rename {settings : Settings} {query : Query} {σ : String → String}
    (renames : query.Renaming σ)
    (resolves : ∀ selected, query.selection settings = .ok selected → query.resolves = true) :
    Alike CompilationError.anonymous CompiledQuery.SameOutput (query.compile settings)
      ((query.rename σ).compile settings) := by
  have selections := query.selection_rename renames settings settings.optimizeEitherDirection
  apply ((selections.and_left resolves)).bind
  rintro ⟨selection, projections⟩ ⟨selection', projections'⟩ ⟨⟨final, follows⟩, resolves⟩
  obtain ⟨predicates, columns⟩ := follows.run.rename_eq resolves σ
  have isColumns : selection.columns = final.layout.columns := follows.columns
  have isCondition : selection.condition =
      filterOf settings final.progress.graph final.progress.predicates := follows.condition
  have same : selection' = selection := by
    refine Eq.trans follows.selection ?_
    dsimp only
    rw [predicates, isColumns, columns, ← isColumns]
    change { selection with
      condition := filterOf settings final.progress.graph final.progress.predicates } = selection
    rw [← isCondition]
    cases selection
    rfl
  subst same
  apply (Alike.refl _).bind
  rintro statement _ rfl
  exact .ok ⟨rfl, kinds_eq_of_follows follows.projections⟩

/-- Two names change places, a third one gets a new name. -/
def otherNames : String → String
  | "a" => "b"
  | "b" => "a"
  | "c" => "peer"
  | name => name

theorem Cypher.Query.compile_rename_severalText : ∃ query compiled compiled',
    Query.parse severalText = .ok query ∧ query.Renaming otherNames ∧ query.resolves = true ∧
      query.compile .standard = .ok compiled ∧
      (query.rename otherNames).compile .standard = .ok compiled' ∧
      compiled.SameOutput compiled' := by
  have evaluated : ((Query.parse severalText).toOption.any fun query =>
      query.Renaming otherNames && query.resolves &&
        (query.compile .standard).toOption.isSome) = true := by
    decide +kernel
  rw [Option.any_eq_true] at evaluated
  obtain ⟨query, parsed, evaluated⟩ := evaluated
  simp only [Bool.and_eq_true, decide_eq_true_eq] at evaluated
  obtain ⟨⟨renames, resolves⟩, succeeds⟩ := evaluated
  obtain ⟨compiled, compiles⟩ := Option.isSome_iff_exists.mp succeeds
  rw [toOption_eq_some] at parsed compiles
  have alike : Alike CompilationError.anonymous CompiledQuery.SameOutput (query.compile .standard)
      ((query.rename otherNames).compile .standard) :=
    query.compile_rename renames fun _ _ => resolves
  rw [compiles] at alike
  generalize other : (query.rename otherNames).compile .standard = result at alike
  cases alike with
  | @ok _ compiled' same =>
    exact ⟨query, compiled, compiled', parsed, renames, resolves, compiles, other, same⟩

end CypherSql
