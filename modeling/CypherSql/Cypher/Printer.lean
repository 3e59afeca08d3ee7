import CypherSql.Cypher.Syntax
import CypherSql.Decimal.Layout

/-! # The text of expressions and patterns

Every part of a query has one canonical text, from which it can be read again.
Unnamed result columns and messages show it.

* `Pattern.chars`, `Expression.chars`, `Term.chars` — the texts as characters.
* `Pattern.text`, `Expression.text`, `Term.text` — the same as strings.
-/

namespace CypherSql.Cypher

open CypherSql.Decimal (Binary64)

def joined (separator : List Char) (parts : List (List Char)) : List Char :=
  separator.intercalate parts

/-! ## Patterns -/

/-- Labels, each introduced by its mark: `first` in front of the first one and
`next` in front of the others. -/
def labelChars (first next : Char) : List String → List Char
  | [] => []
  | label :: rest => first :: label.toList ++ rest.flatMap fun other => next :: other.toList

def nameChars (name : Option String) : List Char :=
  (name.getD "").toList

def NodePattern.chars (node : NodePattern) : List Char :=
  '(' :: nameChars node.name ++ labelChars ':' ':' node.labels ++ [')']

def RelationshipPattern.chars (relationship : RelationshipPattern) : List Char :=
  (if relationship.leftArrow then ['<'] else []) ++ ['-', '['] ++
    nameChars relationship.name ++ labelChars ':' '|' relationship.labels ++
    [']', '-'] ++ (if relationship.rightArrow then ['>'] else [])

def Hop.chars (hop : Hop) : List Char :=
  hop.relationship.chars ++ hop.node.chars

def Pattern.chars (pattern : Pattern) : List Char :=
  pattern.node.chars ++ pattern.hops.flatMap Hop.chars

/-! ## Operators and constants -/

def ComparisonOperator.symbol : ComparisonOperator → String
  | equal => "="
  | notEqual => "<>"
  | less => "<"
  | lessOrEqual => "<="
  | greater => ">"
  | greaterOrEqual => ">="

def AdditiveOperator.symbol : AdditiveOperator → String
  | plus => "+"
  | minus => "-"

def MultiplicativeOperator.symbol : MultiplicativeOperator → String
  | times => "*"
  | divide => "/"
  | modulo => "%"

def StringOperator.symbol : StringOperator → String
  | startsWith => "STARTS WITH"
  | endsWith => "ENDS WITH"
  | contains => "CONTAINS"

def Literal.chars : Literal → List Char
  | string text => '\x27' :: text.toList ++ ['\x27']
  | integer value => Nat.toDigits 10 value
  | float value => value.plain
  | boolean value => (if value then "true" else "false").toList
  | null => "null".toList

def spaced (symbol : String) : List Char :=
  ' ' :: symbol.toList ++ [' ']

/-! ## Expressions -/

mutual

def Expression.chars : Expression → List Char
  | ⟨operands⟩ => joined (spaced "OR") (exclusionsChars operands)

def exclusionsChars : List Exclusion → List (List Char)
  | [] => []
  | operand :: rest => operand.chars :: exclusionsChars rest

def Exclusion.chars : Exclusion → List Char
  | ⟨operands⟩ => joined (spaced "XOR") (conjunctionsChars operands)

def conjunctionsChars : List Conjunction → List (List Char)
  | [] => []
  | operand :: rest => operand.chars :: conjunctionsChars rest

def Conjunction.chars : Conjunction → List Char
  | ⟨operands⟩ => joined (spaced "AND") (comparisonsChars operands)

def comparisonsChars : List Comparison → List (List Char)
  | [] => []
  | operand :: rest => operand.chars :: comparisonsChars rest

def Comparison.chars : Comparison → List Char
  | ⟨negated, left, rest⟩ =>
    (if negated then "NOT ".toList else []) ++ left.chars ++ comparedChars rest

def comparedChars : List (ComparisonOperator × Addition) → List Char
  | [] => []
  | (operator, operand) :: rest =>
    spaced operator.symbol ++ operand.chars ++ comparedChars rest

def Addition.chars : Addition → List Char
  | ⟨first, rest⟩ => first.chars ++ addedChars rest

def addedChars : List (AdditiveOperator × Multiplication) → List Char
  | [] => []
  | (operator, operand) :: rest =>
    spaced operator.symbol ++ operand.chars ++ addedChars rest

def Multiplication.chars : Multiplication → List Char
  | ⟨first, rest⟩ => first.chars ++ multipliedChars rest

def multipliedChars : List (MultiplicativeOperator × Power) → List Char
  | [] => []
  | (operator, operand) :: rest =>
    spaced operator.symbol ++ operand.chars ++ multipliedChars rest

def Power.chars : Power → List Char
  | ⟨operands⟩ => joined (spaced "^") (signedsChars operands)

def signedsChars : List Signed → List (List Char)
  | [] => []
  | operand :: rest => operand.chars :: signedsChars rest

def Signed.chars : Signed → List Char
  | ⟨negative, term, tests⟩ =>
    (if negative then ['-'] else []) ++ term.chars ++ testedChars tests

def testedChars : List (StringOperator × Term) → List Char
  | [] => []
  | (operator, operand) :: rest =>
    spaced operator.symbol ++ operand.chars ++ testedChars rest

def Term.chars : Term → List Char
  | ⟨atom, path⟩ => atom.chars ++ path.flatMap fun key => '.' :: key.toList

def Atom.chars : Atom → List Char
  | .name name => name.toList
  | .literal value => value.chars
  | .call name distinct arguments =>
    name.toList ++ '(' :: (if distinct then "DISTINCT ".toList else []) ++
      joined [',', ' '] (argumentsChars arguments) ++ [')']
  | .countAll => "COUNT(*)".toList
  | .parenthesized inner => '(' :: inner.chars ++ [')']
  | .pattern pattern => pattern.chars

def argumentsChars : List Expression → List (List Char)
  | [] => []
  | argument :: rest => argument.chars :: argumentsChars rest

end

def Expression.text (expression : Expression) : String :=
  String.ofList expression.chars

def Term.text (term : Term) : String :=
  String.ofList term.chars

def Pattern.text (pattern : Pattern) : String :=
  String.ofList pattern.chars

end CypherSql.Cypher
