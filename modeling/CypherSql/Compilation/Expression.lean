import CypherSql.Text.Identifier
import CypherSql.Compilation.Existence

/-! # Compiling expressions

Each level of an expression becomes SQL by joining what its operands became.  Where
an expression consists of nothing but a pair of parentheses, the pair is dropped: each
level tells the next one whether it is the `whole` of the expression.

* `compileName` — what a name means: a graph variable, else an expression that was
  given the name, else a column.
* `likePattern` — string tests as patterns of `LIKE`.
* `compile` — whole expressions.
-/

namespace CypherSql.Compilation

open CypherSql.Cypher
open CypherSql.Graph (Slot)
open CypherSql.Sql (Aggregate Fragment GenerationError Lexeme)

/-! ## Terms -/

def compileSlot (slot : Slot) (path : List String) : Compiled :=
  if path.isEmpty then .ofSlot slot else .ofProperty slot path

/-- A name and the properties taken from it.  Properties are taken from slots only. -/
def compileName (bindings : Bindings) (name : String) (path : List String) :
    Compile Compiled := do
  let state ← get
  match state.graph.slot? name with
  -- Variables of the graph come before names that `WITH` gives.
  | some slot => return compileSlot slot path
  | none =>
    match bindings.find? name with
    | some compiled =>
      if path.isEmpty then return compiled
      else
        match compiled.slot with
        | some slot => return compileSlot slot path
        | none => throw (.binding (.variableNotFound name))
    | none =>
      -- A name that nothing binds is left for the database to resolve.
      if path.isEmpty then return .scalar [.word name]
      else throw (.binding (.variableNotFound name))

/-- The pattern of `LIKE` for a string test.  The text goes into it as it is. -/
def likePattern (operator : StringOperator) (text : String) : String :=
  match operator with
  | .startsWith => text ++ "%"
  | .endsWith => "%" ++ text
  | .contains => "%" ++ text ++ "%"

def stringOf? : Term → Option String
  | ⟨.literal (.string text), []⟩ => some text
  | _ => none

/-- A string test against a literal.  A term allows at most one. -/
def applyTests (subject : Compiled) : List (StringOperator × Term) → Compile Compiled
  | [] => return subject
  | [(operator, term)] =>
    match stringOf? term with
    | some text =>
      return .ofParts
        (subject.operand ++ [.like, .literal (.string (likePattern operator text))]) [subject]
    | none => throw (.invalidStringOperand term.text)
  | _ => refuse .severalStringTests

/-- What a count counts: rows for a whole slot, or its numbers when they are to be
distinct, else the argument. -/
def counted (argument : Compiled) (distinct : Bool) : Fragment :=
  match argument.slot, distinct with
  | some _, false => [.star]
  | some _, true => argument.operand
  | none, _ => argument.sql

def count (argument : Compiled) (distinct : Bool) : Compile Compiled :=
  if argument.aggregates then refuse .nestedAggregate
  else return .ofAggregate (.count distinct) (counted argument distinct) [argument]

/-- A power: the operands from left to right, each result raised to the next. -/
def powerOf (first : Fragment) (rest : List Fragment) : Fragment :=
  rest.foldl (fun base exponent =>
    [.function "POWER", .opening] ++ base ++ [.comma] ++ exponent ++ [.closing]) first

def requireNoPath (atom : Atom) (path : List String) : Compile Unit :=
  if path.isEmpty then return () else refuse (.propertyOfValue (Term.text ⟨atom, path⟩))

/-! ## Levels of precedence -/

mutual

def compile (bindings : Bindings) : Expression → Compile Compiled
  | ⟨[]⟩ => refuse .emptyExpression
  | ⟨[only]⟩ => compileExclusion bindings true only
  | ⟨operands⟩ => do
    let parts ← compileExclusions bindings operands
    return .disjunction parts

def compileExclusions (bindings : Bindings) : List Exclusion → Compile (List Compiled)
  | [] => return []
  | operand :: rest => do
    let first ← compileExclusion bindings false operand
    let others ← compileExclusions bindings rest
    return first :: others

def compileExclusion (bindings : Bindings) (whole : Bool) : Exclusion → Compile Compiled
  | ⟨[]⟩ => refuse .emptyExclusion
  | ⟨[only]⟩ => compileConjunction bindings whole only
  | _ => refuse .exclusion

def compileConjunction (bindings : Bindings) (whole : Bool) : Conjunction → Compile Compiled
  | ⟨[]⟩ => refuse .emptyConjunction
  | ⟨[only]⟩ => compileComparison bindings whole only
  | ⟨operands⟩ => do
    let parts ← compileComparisons bindings operands
    return .chain .and parts

def compileComparisons (bindings : Bindings) : List Comparison → Compile (List Compiled)
  | [] => return []
  | operand :: rest => do
    let first ← compileComparison bindings false operand
    let others ← compileComparisons bindings rest
    return first :: others

def compileComparison (bindings : Bindings) (whole : Bool) : Comparison → Compile Compiled
  | ⟨negated, left, rest⟩ => do
    let first ← compileAddition bindings (whole && !negated && rest.isEmpty) left
    let compared ← compileCompared bindings first rest
    return if negated then .behind .not compared else compared

def compileCompared (bindings : Bindings) (first : Compiled) :
    List (ComparisonOperator × Addition) → Compile Compiled
  | [] => return first
  | [(operator, right)] => do
    let second ← compileAddition bindings false right
    return .steps first [(.compare operator, second)]
  | _ => refuse .chainedComparison

def compileAddition (bindings : Bindings) (whole : Bool) : Addition → Compile Compiled
  | ⟨first, rest⟩ => do
    let left ← compileMultiplication bindings (whole && rest.isEmpty) first
    let right ← compileAdded bindings rest
    return if right.isEmpty then left else .steps left right

def compileAdded (bindings : Bindings) :
    List (AdditiveOperator × Multiplication) → Compile (List (Lexeme × Compiled))
  | [] => return []
  | (operator, operand) :: rest => do
    let first ← compileMultiplication bindings false operand
    let others ← compileAdded bindings rest
    return (.add operator, first) :: others

def compileMultiplication (bindings : Bindings) (whole : Bool) :
    Multiplication → Compile Compiled
  | ⟨first, rest⟩ => do
    let left ← compilePower bindings (whole && rest.isEmpty) first
    let right ← compileMultiplied bindings rest
    return if right.isEmpty then left else .steps left right

def compileMultiplied (bindings : Bindings) :
    List (MultiplicativeOperator × Power) → Compile (List (Lexeme × Compiled))
  | [] => return []
  | (operator, operand) :: rest => do
    let first ← compilePower bindings false operand
    let others ← compileMultiplied bindings rest
    return (.multiply operator, first) :: others

def compilePower (bindings : Bindings) (whole : Bool) : Power → Compile Compiled
  | ⟨[]⟩ => refuse .emptyPower
  | ⟨[only]⟩ => compileSigned bindings whole only
  | ⟨first :: rest⟩ => do
    let base ← compileSigned bindings false first
    let exponents ← compileSigneds bindings rest
    return .ofParts (powerOf base.operand (exponents.map Compiled.operand)) (base :: exponents)

def compileSigneds (bindings : Bindings) : List Signed → Compile (List Compiled)
  | [] => return []
  | operand :: rest => do
    let first ← compileSigned bindings false operand
    let others ← compileSigneds bindings rest
    return first :: others

def compileSigned (bindings : Bindings) (whole : Bool) : Signed → Compile Compiled
  | ⟨negative, term, tests⟩ => do
    let subject ← compileTerm bindings (whole && !negative && tests.isEmpty) term
    let tested ← applyTests subject tests
    return if negative then .behind .negate tested else tested

def compileTerm (bindings : Bindings) (whole : Bool) : Term → Compile Compiled
  | ⟨.name name, path⟩ => compileName bindings name path
  | ⟨atom, path⟩ => do
    requireNoPath atom path
    compileAtom bindings whole atom

def compileAtom (bindings : Bindings) (whole : Bool) : Atom → Compile Compiled
  | .name name => compileName bindings name []
  | .literal value => return .scalar [.literal value]
  | .call name distinct arguments =>
    if Text.sameIgnoringCase name "COUNT" then compileCount bindings distinct arguments
    else throw (.unsupportedFunction name)
  | .countAll => return .ofAggregate (.count false) [.star] []
  | .parenthesized inner => do
    let value ← compile bindings inner
    -- The columns of a whole slot are a list, which cannot stand between parentheses.
    return if whole || value.slot.isSome then value
      else .ofParts value.sql.parenthesized [value]
  | .pattern pattern => existence bindings.settings pattern

def compileCount (bindings : Bindings) (distinct : Bool) : List Expression → Compile Compiled
  | [argument] => do count (← compile bindings argument) distinct
  | _ => refuse .countArguments

end

end CypherSql.Compilation
