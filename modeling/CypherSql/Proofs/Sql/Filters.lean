import CypherSql.Proofs.Condition.Clauses
import CypherSql.Proofs.Sql.Database
import CypherSql.Proofs.Sql.Truth

/-! # Filters as they are written

The filter of a branch is written as text, and what counts for a database is what SQL reads there.
Here it is kept as one fragment, which a database reads by the grammar like any other.

* `Leaf.fragment`, `Branch.filter` — what is written for a leaf and for a whole filter.
* `Fragment.holds` — whether what SQL reads in a fragment holds.
* `Statement.asWritten` — a statement with the same text, in which each filter is one fragment.
* `Database.grammatical` — a database that goes by what SQL reads.
* `Branch.holds_asWritten` — a conjunction of leaves holds as it is written when each leaf does.
-/

namespace CypherSql.Sql

open CypherSql.Condition (conjunction tokens_conjunction holds_conjunction)

/-! ## What is written -/

def Test.fragment : Test → Fragment
  | hasType row label => [.field row ["type"], .compare .equal, .literal (.string label)]
  | sameId left right => [.field left ["id"], .compare .equal, .field right ["id"]]
  | runsFrom relation node =>
    [.field relation ["from_id"], .compare .equal, .field node ["id"]]
  | runsTo relation node => [.field relation ["to_id"], .compare .equal, .field node ["id"]]

def Leaf.fragment : Leaf → Fragment
  | shape test => test.fragment
  | predicate fragment => fragment
  | never => .given "FALSE"

def wordFragment : Condition.Token Leaf → Fragment
  | .leaf leaf => leaf.fragment
  | .and => [.and]
  | .or => [.or]
  | .opening => [.opening]
  | .closing => [.closing]

/-- What stands behind the `WHERE` of a branch. -/
def Branch.filter {σ : Type} (branch : Branch σ) : Fragment :=
  (branch.condition.tokens fun leaf => leaf.text.isEmpty).flatMap wordFragment

theorem Test.text_fragment (test : Test) : test.fragment.text = test.text := by
  apply String.toList_inj.mp
  cases test <;>
    simp [Test.fragment, Fragment.text, Lexeme.text, Test.text, literalText,
      Cypher.ComparisonOperator.symbol]

theorem Leaf.text_fragment (leaf : Leaf) : leaf.fragment.text = leaf.text := by
  cases leaf with
  | shape test => exact test.text_fragment
  | predicate fragment => rfl
  | never => rfl

theorem text_wordFragment (word : Condition.Token Leaf) :
    (wordFragment word).text = word.text Leaf.text := by
  cases word with
  | leaf leaf => exact leaf.text_fragment
  | and | or | opening | closing => rfl

theorem text_flatMap_wordFragment (words : List (Condition.Token Leaf)) :
    Fragment.text (words.flatMap wordFragment) =
      String.join (words.map (Condition.Token.text Leaf.text)) := by
  induction words with
  | nil => rfl
  | cons word rest ih =>
    rw [List.flatMap_cons, Fragment.text, List.map_append, String.join_append, ← Fragment.text,
      ← Fragment.text, text_wordFragment, ih, List.map_cons, String.join_cons]

theorem Branch.text_filter {σ : Type} (branch : Branch σ) :
    branch.filter.text = branch.condition.text Leaf.text :=
  text_flatMap_wordFragment _

/-! ## What is read -/

open Classical in
/-- Whether what SQL reads in a fragment holds, when it is known which fragments without `OR`,
`AND` and `NOT` do. -/
noncomputable def Fragment.holds (atoms : Fragment → Bool) (fragment : Fragment) : Bool :=
  decide (∃ phrase, Reads 1 fragment phrase ∧ phrase.truth atoms = true)

theorem Fragment.holds_iff {atoms : Fragment → Bool} {fragment : Fragment} :
    fragment.holds atoms = true ↔
      ∃ phrase, Reads 1 fragment phrase ∧ phrase.truth atoms = true := by
  unfold Fragment.holds
  exact @decide_eq_true_iff _ (Classical.propDecidable _)

theorem Fragment.holds_of_reads {atoms : Fragment → Bool} {fragment : Fragment} {level : Nat}
    {phrase : Phrase} (atLeast : 1 ≤ level) (reads : Reads level fragment phrase) :
    fragment.holds atoms = phrase.truth atoms := by
  rw [Bool.eq_iff_iff, Fragment.holds_iff]
  constructor
  · rintro ⟨other, otherReads, holds⟩
    obtain rfl := Reads.unique (Nat.le_refl 1) atLeast otherReads reads
    exact holds
  · exact fun holds => ⟨phrase, ⟨Phrase.fits_mono atLeast reads.fits, reads.written⟩, holds⟩

/-- A leaf is written at all, and it is an expression of SQL without an `OR` outside
parentheses.  Text that was given counts as one operand. -/
def Leaf.StandsAmong (leaf : Leaf) : Prop :=
  leaf.text ≠ "" ∧ ∃ phrase, Reads 2 leaf.fragment phrase

theorem Leaf.standsAmong_never : Leaf.never.StandsAmong :=
  ⟨by decide, .operand (.given "FALSE") rfl, rfl, rfl⟩

theorem Leaf.standsAmong_shape (test : Test) : (Leaf.shape test).StandsAmong := by
  constructor
  · intro empty
    have none := congrArg String.length empty
    cases test <;> simp [Leaf.text, Test.text] at none
  · cases test with
    | hasType row label =>
      exact ⟨.binary (.compare .equal) (.operand (.field row ["type"]) rfl)
        (.operand (.literal (.string label)) rfl), rfl, rfl⟩
    | sameId left right =>
      exact ⟨.binary (.compare .equal) (.operand (.field left ["id"]) rfl)
        (.operand (.field right ["id"]) rfl), rfl, rfl⟩
    | runsFrom relation node =>
      exact ⟨.binary (.compare .equal) (.operand (.field relation ["from_id"]) rfl)
        (.operand (.field node ["id"]) rfl), rfl, rfl⟩
    | runsTo relation node =>
      exact ⟨.binary (.compare .equal) (.operand (.field relation ["to_id"]) rfl)
        (.operand (.field node ["id"]) rfl), rfl, rfl⟩

theorem exists_phrases {leaves : List Leaf} (stand : ∀ leaf ∈ leaves, leaf.StandsAmong) :
    ∃ phrases : List Phrase, phrases.map Phrase.fragment = leaves.map Leaf.fragment ∧
      (∀ phrase ∈ phrases, phrase.fits .sql 2 = true) ∧
      ∀ atoms, (phrases.all fun phrase => phrase.truth atoms) =
        leaves.all fun leaf => leaf.fragment.holds atoms := by
  induction leaves with
  | nil => exact ⟨[], rfl, List.forall_mem_nil _, fun _ => rfl⟩
  | cons leaf rest ih =>
    obtain ⟨⟨_, phrase, reads⟩, others⟩ := List.forall_mem_cons.mp stand
    obtain ⟨phrases, written, fit, same⟩ := ih others
    refine ⟨phrase :: phrases, ?_, List.forall_mem_cons.mpr ⟨reads.fits, fit⟩, fun atoms => ?_⟩
    · rw [List.map_cons, List.map_cons, written, reads.written]
    · rw [List.all_cons, List.all_cons, same, Fragment.holds_of_reads (by decide) reads]

/-- Leaves with `AND` between them hold when each of them does. -/
theorem holds_joined {atoms : Fragment → Bool} {leaves : List Leaf} (present : leaves ≠ [])
    (stand : ∀ leaf ∈ leaves, leaf.StandsAmong) :
    (Fragment.joined .and (leaves.map Leaf.fragment)).holds atoms =
      leaves.all fun leaf => leaf.fragment.holds atoms := by
  obtain ⟨phrases, written, fit, same⟩ := exists_phrases stand
  rw [← written, ← same]
  cases phrases with
  | nil => exact absurd (List.map_eq_nil_iff.mp written.symm) present
  | cons first rest =>
    obtain ⟨reading, reads, holdsAll⟩ := Phrase.reads_conjunction fit
    rw [Fragment.holds_of_reads (by decide) reads, holdsAll]

/-! ## Statements as they are written -/

/-- The branch with its whole filter as one leaf.  A filter of which nothing is written is left
out. -/
def Branch.asWritten {σ : Type} (branch : Branch σ) : Branch σ :=
  { branch with
    condition := if branch.filter.text.isEmpty then .all [] else .leaf (.predicate branch.filter) }

def Statement.asWritten : Statement → Statement
  | single branch page => .single branch.asWritten page
  | union distinct branches page => .union distinct (branches.map Branch.asWritten) page
  | merged columns distinct branches keys page =>
    .merged columns distinct (branches.map Branch.asWritten) keys page

theorem Branch.text_condition_asWritten {σ : Type} (branch : Branch σ) :
    branch.asWritten.condition.text Leaf.text = branch.condition.text Leaf.text := by
  rw [← branch.text_filter]
  unfold Branch.asWritten
  split
  · next empty =>
    rw [String.isEmpty_iff.mp empty]
    rfl
  · simp [Condition.text, Condition.tokens, Condition.written, Condition.Token.text, Leaf.text]

theorem Branch.text_asWritten (branch : Branch Statement) :
    branchText branch.asWritten = branchText branch := by
  have same := branch.text_condition_asWritten
  obtain ⟨distinct, columns, sources, joins, condition, keys⟩ := branch
  rw [asWritten] at same ⊢
  rw [branchText, branchText, same]

theorem branchTexts_asWritten (branches : List (Branch Statement)) :
    branchTexts (branches.map Branch.asWritten) = branchTexts branches := by
  induction branches with
  | nil => rfl
  | cons branch rest ih => rw [List.map_cons, branchTexts, branchTexts, Branch.text_asWritten, ih]

theorem Statement.text_asWritten (statement : Statement) :
    statement.asWritten.text = statement.text := by
  cases statement with
  | single branch page => rw [asWritten, Statement.text, Statement.text, Branch.text_asWritten]
  | union distinct branches page =>
    rw [asWritten, Statement.text, Statement.text, branchTexts_asWritten]
  | merged columns distinct branches keys page =>
    rw [asWritten, Statement.text, Statement.text, branchTexts_asWritten]

/-! ## Databases that go by what is written -/

variable {V : Type} [DecidableEq V]

/-- What a database says of expressions without `OR`, `AND` and `NOT`.  The constant `FALSE` never
holds. -/
def Database.atoms (db : Database V) (rows : Alias → Record V) (fragment : Fragment) : Bool :=
  fragment.text != "FALSE" && db.predicate rows fragment

/-- The database reads every leaf by the grammar. -/
noncomputable def Database.grammatical (db : Database V) : Reading (Alias → Record V) V :=
  { db.reading with truth := fun rows leaf => leaf.fragment.holds (db.atoms rows) }

section

variable (db : Database V) (rows : Alias → Record V)

theorem Database.truth_eq (leaf : Leaf) :
    db.grammatical.truth rows leaf = leaf.fragment.holds (db.atoms rows) := rfl

theorem Database.truth_never : db.grammatical.truth rows .never = false := by
  have reads : Reads 2 Leaf.never.fragment (.operand (.given "FALSE") rfl) := ⟨rfl, rfl⟩
  rw [truth_eq, Fragment.holds_of_reads (by decide) reads]
  rfl

end

theorem flatMap_intercalate {α β : Type} (f : α → List β) (separator : List α)
    (parts : List (List α)) : (separator.intercalate parts).flatMap f =
      (separator.flatMap f).intercalate (parts.map fun part => part.flatMap f) := by
  induction parts with
  | nil => rfl
  | cons first rest ih =>
    cases rest with
    | nil => simp [List.intercalate]
    | cons second rest =>
      rw [List.map_cons] at ih ⊢
      rw [List.map_cons, List.intercalate_cons_cons, List.intercalate_cons_cons,
        List.flatMap_append, List.flatMap_append, ih]

variable {σ : Type} {branch : Branch σ} {leaves : List Leaf}
  (isConjunction : branch.condition = conjunction leaves)
  (stand : ∀ leaf ∈ leaves, leaf.StandsAmong)
include isConjunction stand

theorem Branch.filter_eq_joined :
    branch.filter = Fragment.joined .and (leaves.map Leaf.fragment) := by
  have traced : ∀ leaf ∈ leaves, leaf.text.isEmpty = false := fun leaf isLeaf =>
    Bool.eq_false_iff.mpr (mt String.isEmpty_iff.mp (stand leaf isLeaf).1)
  rw [filter, isConjunction, tokens_conjunction traced, flatMap_intercalate, List.map_map,
    Fragment.joined]
  simp [wordFragment, Function.comp_def]

theorem Branch.filter_isEmpty_iff : branch.filter.text.isEmpty = true ↔ leaves = [] := by
  rw [branch.filter_eq_joined isConjunction stand]
  cases leaves with
  | nil => simp [Fragment.joined, Fragment.text]
  | cons leaf rest =>
    have written := (stand leaf List.mem_cons_self).1
    rw [← leaf.text_fragment, Fragment.text] at written
    rw [List.map_cons, Fragment.joined_cons, Fragment.text, List.map_append, String.join_append]
    simp [written]

/-- A conjunction of leaves that is read from its text holds when each of them does. -/
theorem Branch.holds_asWritten (db : Database V) (rows : Alias → Record V) :
    branch.asWritten.condition.holds (db.grammatical.truth rows) =
      branch.condition.holds (db.grammatical.truth rows) := by
  rw [isConjunction, holds_conjunction]
  unfold asWritten
  split
  · next empty =>
    obtain rfl := (branch.filter_isEmpty_iff isConjunction stand).mp empty
    rfl
  · next written =>
    have present := mt (branch.filter_isEmpty_iff isConjunction stand).mpr written
    rw [Condition.holds_leaf, Database.truth_eq, Leaf.fragment,
      branch.filter_eq_joined isConjunction stand, holds_joined present stand]
    rfl

end CypherSql.Sql
