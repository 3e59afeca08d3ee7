import CypherSql.Cypher.Parser.Pattern

/-! # Reading expressions

One parser for every level of precedence, from `OR` down to the atom.  A level is
given the parser of whole expressions, which is needed between parentheses and
for arguments only.

* `Parser.atom`, `Parser.term`, …, `Parser.disjunction` — the levels.
* `Parser.nested` — expressions up to a depth of nesting.
* `Parser.expression` — expressions of any depth.
-/

namespace CypherSql.Cypher.Parser

/-- An operator with white space around it, then its operand. -/
def step {α β : Type} (operator : Parser α) (operand : Parser β) : Parser (α × β) := do
  let symbol ← spacing operator
  let value ← operand
  return (symbol, value)

def meaning {α : Type} (value : α) (symbol : Parser Unit) : Parser α := do
  symbol
  return value

/-! ## Operators -/

def comparisonOperator : Parser ComparisonOperator :=
  oneOf
    -- Longer operators come before those that begin them.
    [meaning .notEqual (token "<>"), meaning .lessOrEqual (token "<="),
      meaning .greaterOrEqual (token ">="), meaning .equal (token "="),
      meaning .less (token "<")]
    (meaning .greater (token ">"))

def additiveOperator : Parser AdditiveOperator :=
  orElse (meaning .plus (token "+")) (meaning .minus (token "-"))

def multiplicativeOperator : Parser MultiplicativeOperator :=
  oneOf [meaning .times (token "*"), meaning .divide (token "/")] (meaning .modulo (token "%"))

def twoWords (first second : String) : Parser Unit := do
  keyword first
  let _ ← someCharsOf isSpacing
  keyword second

def stringOperator : Parser StringOperator :=
  oneOf
    [meaning .startsWith (twoWords "STARTS" "WITH"), meaning .endsWith (twoWords "ENDS" "WITH")]
    (meaning .contains (keyword "CONTAINS"))

def sign : Parser Char :=
  orElse (char '-') (char '+')

/-! ## Atoms -/

def countAll : Parser Atom := do
  keyword "COUNT"
  let _ ← spacing (char '(')
  let _ ← spacing (char '*')
  let _ ← char ')'
  return .countAll

/-- `name([DISTINCT] arguments)`. -/
def call (expression : Parser Expression) : Parser Atom := do
  let name ← symbolicName
  let _ ← spacing (char '(')
  let distinct ← optional (spacing (keyword "DISTINCT"))
  let arguments ← separatedOrNone (spacing (char ',')) expression
  let _ ← char ')'
  return .call name distinct.isSome arguments

/-- A pattern as a test.  At least one hop is required, so a variable between
parentheses is not one. -/
def patternAtom : Parser Atom := do
  let value ← satisfying (fun value => !value.hops.isEmpty) pattern
  return .pattern value

def parenthesized (expression : Parser Expression) : Parser Atom := do
  let _ ← spacing (char '(')
  let inner ← expression
  let _ ← spacing (char ')')
  return .parenthesized inner

def literalAtom : Parser Atom := do
  let value ← literal
  return .literal value

def nameAtom : Parser Atom := do
  let name ← variableName
  return .name name

def atom (expression : Parser Expression) : Parser Atom :=
  -- A call begins as a name does, and a pattern as a parenthesis does.
  oneOf [literalAtom, countAll, call expression, patternAtom, parenthesized expression]
    nameAtom

/-! ## Levels of precedence -/

def property : Parser String :=
  spacing do
    let _ ← char '.'
    symbolicName

def term (expression : Parser Expression) : Parser Term := do
  let value ← spacing (atom expression)
  let path ← many property
  return ⟨value, path⟩

def signed (expression : Parser Expression) : Parser Signed := do
  let mark ← optional (spacing sign)
  let value ← term expression
  let tests ← many (step stringOperator (term expression))
  -- A plus leaves no trace.
  return ⟨mark == some '-', value, tests⟩

def power (expression : Parser Expression) : Parser Power := do
  let operands ← separated (spacing (char '^')) (signed expression)
  return ⟨operands⟩

def multiplication (expression : Parser Expression) : Parser Multiplication := do
  let first ← power expression
  let rest ← many (step multiplicativeOperator (power expression))
  return ⟨first, rest⟩

def addition (expression : Parser Expression) : Parser Addition := do
  let first ← multiplication expression
  let rest ← many (step additiveOperator (multiplication expression))
  return ⟨first, rest⟩

/-- A comparison behind any number of `NOT`, of which two cancel each other. -/
def comparison (expression : Parser Expression) : Parser Comparison := do
  let negations ← many (spacing (keyword "NOT"))
  let left ← addition expression
  let rest ← many (step comparisonOperator (addition expression))
  return ⟨negations.length % 2 == 1, left, rest⟩

def conjunction (expression : Parser Expression) : Parser Conjunction := do
  let operands ← separated (spacing (keyword "AND")) (comparison expression)
  return ⟨operands⟩

def exclusion (expression : Parser Expression) : Parser Exclusion := do
  let operands ← separated (spacing (keyword "XOR")) (conjunction expression)
  return ⟨operands⟩

def disjunction (expression : Parser Expression) : Parser Expression := do
  let operands ← separated (spacing (keyword "OR")) (exclusion expression)
  return ⟨operands⟩

/-- Expressions nested at most `depth` levels deep. -/
def nested : Nat → Parser Expression
  | 0 => unexpected
  | depth + 1 => disjunction (nested depth)

/-- An expression.  Each level of nesting takes a parenthesis, so the length of the
input bounds the depth. -/
def expression : Parser Expression :=
  fun input => nested (input.length + 1) input

end CypherSql.Cypher.Parser
