import CypherSql.Proofs.Compilation.Tests
import CypherSql.Proofs.Sql.Phrases

/-! # What an expression is written as

The phrase that an expression of Cypher asks for: its operators with their operands, and its
parentheses, where these do not stand around a whole.  What names and patterns stand for is given
by a lexicon, so that one account of the syntax serves for all meanings of names.

* `Written` — a phrase, and what is known about it.
* `Lexicon` — what names and patterns are written as.
* `Lexicon.write` — what an expression is written as, if it can be compiled.
* `Lexicon.meaning` — the lexicon of a query.
-/

namespace CypherSql.Compilation

open CypherSql.Cypher
open CypherSql.Graph (Slot)
open CypherSql.Sql (Binary Phrase Subselect Unary)

/-! ## Phrases with what is known about them -/

/-- A phrase that stands next to an operator, the slot that it is, and whether an aggregate occurs
in it. -/
structure Written where
  phrase : Phrase
  slot : Option Slot
  aggregates : Bool

namespace Written

/-- A single value made from `parts`. -/
def ofParts (phrase : Phrase) (parts : List Written) : Written :=
  ⟨phrase, none, parts.any aggregates⟩

def ofSlot (slot : Slot) (path : List String) : Written :=
  if path.isEmpty then ⟨.operand (.field (.outer slot) ["id"]) rfl, some slot, false⟩
  else ofParts (.operand (.field (.outer slot) path) rfl) []

def ofLiteral (value : Literal) : Written :=
  ofParts (.operand (.literal value) rfl) []

/-- Operands from left to right, each behind its operator. -/
def stepsFrom (first : Phrase) (rest : List (Binary × Written)) : Phrase :=
  rest.foldl (fun left step => .binary step.1 left step.2.phrase) first

/-- Operands from left to right, each result raised to the next. -/
def powersFrom (first : Phrase) (rest : List Written) : Phrase :=
  rest.foldl (fun base exponent => .power base exponent.phrase) first

@[simp] theorem stepsFrom_nil (first : Phrase) : stepsFrom first [] = first := rfl

@[simp] theorem stepsFrom_cons (first : Phrase) (step : Binary × Written)
    (rest : List (Binary × Written)) : stepsFrom first (step :: rest) =
      stepsFrom (.binary step.1 first step.2.phrase) rest := rfl

@[simp] theorem powersFrom_nil (first : Phrase) : powersFrom first [] = first := rfl

@[simp] theorem powersFrom_cons (first : Phrase) (exponent : Written) (rest : List Written) :
    powersFrom first (exponent :: rest) = powersFrom (.power first exponent.phrase) rest := rfl

/-- The last of the operators is the outermost one. -/
theorem exists_stepsFrom_eq {rest : List (Binary × Written)} (nonempty : rest ≠ [])
    (first : Phrase) : ∃ step ∈ rest, ∃ left, stepsFrom first rest =
      .binary step.1 left step.2.phrase := by
  obtain ⟨init, last, rfl⟩ := (List.eq_nil_or_concat rest).resolve_left nonempty
  exact ⟨last, by simp, stepsFrom first init, by simp [stepsFrom]⟩

theorem exists_powersFrom_eq {rest : List Written} (nonempty : rest ≠ []) (first : Phrase) :
    ∃ base exponent, powersFrom first rest = .power base exponent := by
  obtain ⟨init, last, rfl⟩ := (List.eq_nil_or_concat rest).resolve_left nonempty
  exact ⟨powersFrom first init, last.phrase, by simp [powersFrom]⟩

def steps (first : Written) (rest : List (Binary × Written)) : Written :=
  ofParts (stepsFrom first.phrase rest) (first :: rest.map (·.2))

def chain (operator : Binary) (first : Written) (rest : List Written) : Written :=
  steps first (rest.map fun part => (operator, part))

def behind (operator : Unary) (part : Written) : Written :=
  ofParts (.unary operator part.phrase) [part]

def raised (first : Written) (rest : List Written) : Written :=
  ofParts (powersFrom first.phrase rest) (first :: rest)

def tested (subject : Written) (operator : StringOperator) (text : String) : Written :=
  ofParts (.binary .like subject.phrase (ofLiteral (.string (likePattern operator text))).phrase)
    [subject]

def star : Phrase :=
  .operand .star rfl

def counted (argument : Written) (distinct : Bool) : Written where
  phrase := .count distinct (if argument.slot.isSome && !distinct then star else argument.phrase)
  slot := none
  aggregates := true

def enclosed (part : Written) : Written :=
  ofParts (.group part.phrase) [part]

end Written

/-! ## Whole expressions -/

/-- What a name with the properties taken from it is written as, where it is the whole of an
expression and where it is not, and the rows that a pattern looks for. -/
structure Lexicon where
  name? : Bool → String → List String → Option Written
  test? : Pattern → Option Subselect

namespace Lexicon

variable (lexicon : Lexicon)

def writeTests (subject : Written) : List (StringOperator × Term) → Option Written
  | [] => some subject
  | [(operator, term)] => (stringOf? term).map (subject.tested operator)
  | _ => none

mutual

def write : Expression → Option Written
  | ⟨[]⟩ => none
  | ⟨[only]⟩ => writeExclusion true only
  | ⟨first :: second :: rest⟩ => do
    let left ← writeExclusion false first
    let others ← writeExclusions (second :: rest)
    return .chain .or left others

def writeExclusions : List Exclusion → Option (List Written)
  | [] => some []
  | operand :: rest => do
    let first ← writeExclusion false operand
    let others ← writeExclusions rest
    return first :: others

def writeExclusion (whole : Bool) : Exclusion → Option Written
  | ⟨[only]⟩ => writeConjunction whole only
  | _ => none

def writeConjunction (whole : Bool) : Conjunction → Option Written
  | ⟨[]⟩ => none
  | ⟨[only]⟩ => writeComparison whole only
  | ⟨first :: second :: rest⟩ => do
    let left ← writeComparison false first
    let others ← writeComparisons (second :: rest)
    return .chain .and left others

def writeComparisons : List Comparison → Option (List Written)
  | [] => some []
  | operand :: rest => do
    let first ← writeComparison false operand
    let others ← writeComparisons rest
    return first :: others

def writeComparison (whole : Bool) : Comparison → Option Written
  | ⟨negated, left, rest⟩ => do
    let first ← writeAddition (whole && !negated && rest.isEmpty) left
    let compared ← writeCompared first rest
    return if negated then .behind .not compared else compared

def writeCompared (first : Written) : List (ComparisonOperator × Addition) → Option Written
  | [] => some first
  | [(operator, right)] => do
    let second ← writeAddition false right
    return .steps first [(.compare operator, second)]
  | _ => none

def writeAddition (whole : Bool) : Addition → Option Written
  | ⟨first, rest⟩ => do
    let left ← writeMultiplication (whole && rest.isEmpty) first
    let right ← writeAdded rest
    return if right.isEmpty then left else .steps left right

def writeAdded : List (AdditiveOperator × Multiplication) → Option (List (Binary × Written))
  | [] => some []
  | (operator, operand) :: rest => do
    let first ← writeMultiplication false operand
    let others ← writeAdded rest
    return (.add operator, first) :: others

def writeMultiplication (whole : Bool) : Multiplication → Option Written
  | ⟨first, rest⟩ => do
    let left ← writePower (whole && rest.isEmpty) first
    let right ← writeMultiplied rest
    return if right.isEmpty then left else .steps left right

def writeMultiplied : List (MultiplicativeOperator × Power) → Option (List (Binary × Written))
  | [] => some []
  | (operator, operand) :: rest => do
    let first ← writePower false operand
    let others ← writeMultiplied rest
    return (.multiply operator, first) :: others

def writePower (whole : Bool) : Power → Option Written
  | ⟨[]⟩ => none
  | ⟨[only]⟩ => writeSigned whole only
  | ⟨first :: second :: rest⟩ => do
    let base ← writeSigned false first
    let exponents ← writeSigneds (second :: rest)
    return .raised base exponents

def writeSigneds : List Signed → Option (List Written)
  | [] => some []
  | operand :: rest => do
    let first ← writeSigned false operand
    let others ← writeSigneds rest
    return first :: others

def writeSigned (whole : Bool) : Signed → Option Written
  | ⟨negative, term, tests⟩ => do
    let subject ← writeTerm (whole && !negative && tests.isEmpty) term
    let tested ← writeTests subject tests
    return if negative then .behind .negate tested else tested

def writeTerm (whole : Bool) : Term → Option Written
  | ⟨.name name, path⟩ => lexicon.name? whole name path
  | ⟨.literal value, path⟩ => if path.isEmpty then writeAtom whole (.literal value) else none
  | ⟨.call name distinct arguments, path⟩ =>
    if path.isEmpty then writeAtom whole (.call name distinct arguments) else none
  | ⟨.countAll, path⟩ => if path.isEmpty then writeAtom whole .countAll else none
  | ⟨.parenthesized inner, path⟩ =>
    if path.isEmpty then writeAtom whole (.parenthesized inner) else none
  | ⟨.pattern pattern, path⟩ =>
    if path.isEmpty then writeAtom whole (.pattern pattern) else none

def writeAtom (whole : Bool) : Atom → Option Written
  | .name name => lexicon.name? whole name []
  | .literal value => some (.ofLiteral value)
  | .call name distinct arguments =>
    if Text.sameIgnoringCase name "COUNT" then writeCount distinct arguments else none
  | .countAll => some ⟨.count false Written.star, none, true⟩
  | .parenthesized inner => do
    let value ← write inner
    return if whole || value.slot.isSome then value else value.enclosed
  | .pattern pattern => do
    let sub ← lexicon.test? pattern
    return .ofParts (.operand (.existing sub) rfl) []

def writeCount (distinct : Bool) : List Expression → Option Written
  | [argument] => do
    let value ← write argument
    if value.aggregates then none else return value.counted distinct
  | _ => none

end

/-! ## The meaning of names -/

/-- The lexicon of a query: variables of the graph come before names that were given to something,
and a name that nothing binds stands for itself. -/
def meaning (settings : Settings) (graph : Graph) (given : String → Option Written) : Lexicon where
  name? _ name path :=
    match graph.slot? name, given name with
    | some slot, _ => some (.ofSlot slot path)
    | none, some written =>
      if path.isEmpty then some written else written.slot.map fun slot => .ofSlot slot path
    | none, none =>
      if path.isEmpty then some (.ofParts (.operand (.word name) rfl) []) else none
  test? pattern := (embeds graph pattern).map fun embedding => embedding.subselect settings

end Lexicon

end CypherSql.Compilation
