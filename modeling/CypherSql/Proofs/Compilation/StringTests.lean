import CypherSql.Proofs.Compilation.Places
import CypherSql.Proofs.Sql.Like

/-! # What string tests ask of their operands

A string test is written as `LIKE` with a constant behind it, and a database reads that constant as
a pattern.  A text with `%` or `_` in it then asks for more values than the test does.

* `TestHolds` — what a database answers to a test.
* `compileSigned_stringTest_iff` — a test asks for what its operator says exactly where its text
  holds no sign of `LIKE`.
-/

namespace CypherSql

open CypherSql.Cypher
open CypherSql.Sql (Fragment IsSign Leaf constant? likePattern_exact_iff likes
  likes_likePattern_iff literalText)

namespace Compilation

/-- A test is written as `operand LIKE constant`, and what the constant stands for, read as a
pattern, matches a value of the operand. -/
def TestHolds (operand test : Fragment) (value : String) : Prop :=
  ∃ constant pattern, test.text = operand.text ++ " LIKE " ++ constant ∧
    constant? constant.toList = some pattern ∧ likes pattern value.toList = true

theorem testHolds_iff (operand : Fragment) {pattern : String}
    (unquoted : '\x27' ∉ pattern.toList) {value : String} :
    TestHolds operand (operand ++ [.like, .literal (.string pattern)]) value ↔
      likes pattern.toList value.toList = true := by
  have written : Fragment.text (operand ++ [.like, .literal (.string pattern)]) =
      operand.text ++ " LIKE " ++ literalText (.string pattern) := by
    rw [Sql.Fragment.text_append, String.append_assoc]
    rfl
  have isConstant := Sql.constant?_literalText unquoted
  constructor
  · rintro ⟨constant, _, same, isRead, like⟩
    obtain rfl : literalText (.string pattern) = constant :=
      String.append_right_inj _ |>.mp (written.symm.trans same)
    obtain rfl := Option.some.inj (isConstant.symm.trans isRead)
    exact like
  · exact fun like => ⟨_, _, written, isConstant, like⟩

theorem not_mem_likePattern (operator : StringOperator) {text : String}
    (unquoted : '\x27' ∉ text.toList) : '\x27' ∉ (likePattern operator text).toList := by
  cases operator <;> simp [likePattern, unquoted]

/-- A string test is compiled wherever its operand is.  What it asks of a value, its operator asks
with some text that is like its own.  That is what the operator asks with its own text, exactly if
neither `%` nor `_` is in it. -/
theorem compileSigned_stringTest_iff {bindings : Bindings} {term : Term} {subject : Compiled}
    {state final : CompilerState}
    (compiles : (compileTerm bindings false term).run.run state = (.ok subject, final))
    (operator : StringOperator) {text : String} (unquoted : '\x27' ∉ text.toList)
    (whole negative : Bool) :
    ∃ test, (compileSigned bindings whole
          ⟨negative, term, [(operator, ⟨.literal (.string text), []⟩)]⟩).run.run state =
        (.ok (if negative then .behind .negate test else test), final) ∧
      (∀ value, TestHolds subject.operand test.sql value ↔
        ∃ part, likes text.toList part = true ∧ operator.Holds part value.toList) ∧
      ((∀ value, TestHolds subject.operand test.sql value ↔
          operator.Holds text.toList value.toList) ↔
        ∀ character ∈ text.toList, ¬IsSign character) := by
  have holds_iff (value : String) : TestHolds subject.operand _ value ↔ _ :=
    testHolds_iff subject.operand (not_mem_likePattern operator unquoted)
  refine ⟨.ofParts (subject.operand ++ [.like, .literal (.string (likePattern operator text))])
    [subject], ?compiled, fun value => ?matched, ?exact⟩
  case compiled =>
    -- With a test behind it, a term is not the whole expression.
    have narrow : (whole && !negative &&
        [(operator, (⟨.literal (.string text), []⟩ : Term))].isEmpty) = false := by simp
    rw [compileSigned, narrow, run_bind, compiles]
    cases negative <;> rfl
  case matched => exact (holds_iff value).trans (likes_likePattern_iff operator text)
  case exact =>
    -- Values are strings here and lists of characters there.
    rw [← likePattern_exact_iff]
    constructor
    · intro agrees value
      have := (holds_iff (.ofList value)).symm.trans (agrees (.ofList value))
      rwa [String.toList_ofList] at this
    · exact fun agrees value => (holds_iff value).trans (agrees value.toList)

/-- A graph with one node, which is bound to `a`. -/
def namedNode : CompilerState :=
  ⟨⟨[⟨0, [], []⟩], [], [("a", ⟨.node, 0⟩)]⟩, 0⟩

theorem compileSigned_stringTest_iff_namedNode : ∃ subject test final,
    (compileTerm ⟨.standard, []⟩ false ⟨.name "a", ["value"]⟩).run.run namedNode =
        (.ok subject, final) ∧
      (compileSigned ⟨.standard, []⟩ true ⟨false, ⟨.name "a", ["value"]⟩,
          [(.contains, ⟨.literal (.string "abc"), []⟩)]⟩).run.run namedNode = (.ok test, final) ∧
      ∀ value, TestHolds subject.operand test.sql value ↔
        StringOperator.contains.Holds "abc".toList value.toList := by
  have compiles : (compileTerm ⟨.standard, []⟩ false ⟨.name "a", ["value"]⟩).run.run namedNode =
      (.ok (.ofProperty ⟨.node, 0⟩ ["value"]), namedNode) :=
    rfl
  have unquoted : '\x27' ∉ "abc".toList := by decide +kernel
  obtain ⟨test, compilesTest, -, exact_iff⟩ :=
    compileSigned_stringTest_iff compiles .contains unquoted true false
  exact ⟨_, test, _, compiles, compilesTest, exact_iff.mpr (by simp [IsSign])⟩

def underscoreText : String :=
  "MATCH (a) WHERE a.value STARTS WITH 'my_' RETURN a"

def isPredicate (text : String) : Leaf → Bool
  | .predicate fragment => fragment.text == text
  | _ => false

theorem eq_predicate_of_isPredicate {text : String} {leaf : Leaf}
    (writes : isPredicate text leaf = true) :
    ∃ fragment, leaf = .predicate fragment ∧ fragment.text = text := by
  unfold isPredicate at writes
  split at writes
  · next fragment => exact ⟨fragment, rfl, eq_of_beq writes⟩
  · contradiction

end Compilation

open Compilation

/-- A value that starts with `my`, and with another character than `_` behind it, passes that
filter. -/
theorem Cypher.Query.not_prefix_underscoreText : ∃ query compiled,
    Query.parse underscoreText = .ok query ∧ query.compile .standard = .ok compiled ∧
      ¬ ∀ branch ∈ compiled.statement.branches,
        ∀ fragment, .predicate fragment ∈ branch.condition.leaves →
          ∀ value, TestHolds [.field (.outer ⟨.node, 0⟩) ["value"]] fragment value ↔
            StringOperator.startsWith.Holds "my_".toList value.toList := by
  have evaluated : anyBranch underscoreText
      (·.condition.leaves.any (isPredicate "a0.value LIKE 'my_%'")) = true := by decide +kernel
  obtain ⟨query, compiled, branch, parsed, compiles, isOne, evaluated⟩ :=
    exists_of_anyBranch evaluated
  obtain ⟨leaf, isLeaf, writes⟩ := List.any_eq_true.mp evaluated
  obtain ⟨fragment, rfl, written⟩ := eq_predicate_of_isPredicate writes
  refine ⟨query, compiled, parsed, compiles, fun prefixes => ?_⟩
  have passes : TestHolds [.field (.outer ⟨.node, 0⟩) ["value"]] fragment "mysql" :=
    ⟨"'my_%'", "my_%".toList, written.trans (by decide +kernel), by decide +kernel,
      by decide +kernel⟩
  have starts := (prefixes branch isOne fragment isLeaf "mysql").mp passes
  exact absurd starts (by decide +kernel)

end CypherSql
