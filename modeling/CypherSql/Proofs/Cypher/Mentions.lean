import CypherSql.Cypher.Syntax

/-! # Names in expressions

* `Expression.everyMention` — all names of an expression, with the properties taken from them,
  are of some kind.
* `Expression.everyMention_of_all` — they are, where all names are.
* `Expression.replace` — an expression with another one, between parentheses, in the place of a
  name.
-/

namespace CypherSql.Cypher

/-! ## Mentions -/

section

variable (allowed : String → List String → Bool)

mutual

/-- Every name in the expression is allowed together with the properties that are taken from it. -/
def Expression.everyMention : Expression → Bool
  | ⟨operands⟩ => exclusionsMention operands

def exclusionsMention : List Exclusion → Bool
  | [] => true
  | operand :: rest => operand.everyMention && exclusionsMention rest

def Exclusion.everyMention : Exclusion → Bool
  | ⟨operands⟩ => conjunctionsMention operands

def conjunctionsMention : List Conjunction → Bool
  | [] => true
  | operand :: rest => operand.everyMention && conjunctionsMention rest

def Conjunction.everyMention : Conjunction → Bool
  | ⟨operands⟩ => comparisonsMention operands

def comparisonsMention : List Comparison → Bool
  | [] => true
  | operand :: rest => operand.everyMention && comparisonsMention rest

def Comparison.everyMention : Comparison → Bool
  | ⟨_, left, rest⟩ => left.everyMention && comparedMention rest

def comparedMention : List (ComparisonOperator × Addition) → Bool
  | [] => true
  | (_, operand) :: rest => operand.everyMention && comparedMention rest

def Addition.everyMention : Addition → Bool
  | ⟨first, rest⟩ => first.everyMention && addedMention rest

def addedMention : List (AdditiveOperator × Multiplication) → Bool
  | [] => true
  | (_, operand) :: rest => operand.everyMention && addedMention rest

def Multiplication.everyMention : Multiplication → Bool
  | ⟨first, rest⟩ => first.everyMention && multipliedMention rest

def multipliedMention : List (MultiplicativeOperator × Power) → Bool
  | [] => true
  | (_, operand) :: rest => operand.everyMention && multipliedMention rest

def Power.everyMention : Power → Bool
  | ⟨operands⟩ => signedsMention operands

def signedsMention : List Signed → Bool
  | [] => true
  | operand :: rest => operand.everyMention && signedsMention rest

def Signed.everyMention : Signed → Bool
  | ⟨_, term, tests⟩ => term.everyMention && testedMention tests

def testedMention : List (StringOperator × Term) → Bool
  | [] => true
  | (_, operand) :: rest => operand.everyMention && testedMention rest

def Term.everyMention : Term → Bool
  | ⟨.name name, path⟩ => allowed name path
  | ⟨atom, _⟩ => atom.everyMention

def Atom.everyMention : Atom → Bool
  | .name name => allowed name []
  | .call _ _ arguments => argumentsMention arguments
  | .parenthesized inner => inner.everyMention
  | .literal _ | .countAll | .pattern _ => true

def argumentsMention : List Expression → Bool
  | [] => true
  | argument :: rest => argument.everyMention && argumentsMention rest

end

end

/-- The mentions of a list are those of its first member and those of the others. -/
theorem mentions_cons {first rest : Bool} (mentions : (first && rest) = true) :
    first = true ∧ rest = true :=
  Bool.and_eq_true_iff.mp mentions

theorem mentions_append {first rest : Bool} (ofFirst : first = true) (ofRest : rest = true) :
    (first && rest) = true :=
  Bool.and_eq_true_iff.mpr ⟨ofFirst, ofRest⟩

section

variable {allowed : String → List String → Bool}

mutual

theorem Expression.everyMention_of_all (all : ∀ name path, allowed name path = true) :
    ∀ expression, Expression.everyMention allowed expression = true
  | ⟨operands⟩ => exclusionsMention_of_all all operands

theorem exclusionsMention_of_all (all : ∀ name path, allowed name path = true) :
    ∀ operands, exclusionsMention allowed operands = true
  | [] => rfl
  | operand :: rest =>
    mentions_append (Exclusion.everyMention_of_all all operand) (exclusionsMention_of_all all rest)

theorem Exclusion.everyMention_of_all (all : ∀ name path, allowed name path = true) :
    ∀ operand, Exclusion.everyMention allowed operand = true
  | ⟨operands⟩ => conjunctionsMention_of_all all operands

theorem conjunctionsMention_of_all (all : ∀ name path, allowed name path = true) :
    ∀ operands, conjunctionsMention allowed operands = true
  | [] => rfl
  | operand :: rest =>
    mentions_append (Conjunction.everyMention_of_all all operand)
      (conjunctionsMention_of_all all rest)

theorem Conjunction.everyMention_of_all (all : ∀ name path, allowed name path = true) :
    ∀ operand, Conjunction.everyMention allowed operand = true
  | ⟨operands⟩ => comparisonsMention_of_all all operands

theorem comparisonsMention_of_all (all : ∀ name path, allowed name path = true) :
    ∀ operands, comparisonsMention allowed operands = true
  | [] => rfl
  | operand :: rest =>
    mentions_append (Comparison.everyMention_of_all all operand)
      (comparisonsMention_of_all all rest)

theorem Comparison.everyMention_of_all (all : ∀ name path, allowed name path = true) :
    ∀ operand, Comparison.everyMention allowed operand = true
  | ⟨_, left, rest⟩ =>
    mentions_append (left.everyMention_of_all all) (comparedMention_of_all all rest)

theorem comparedMention_of_all (all : ∀ name path, allowed name path = true) :
    ∀ operands, comparedMention allowed operands = true
  | [] => rfl
  | (_, operand) :: rest =>
    mentions_append (Addition.everyMention_of_all all operand) (comparedMention_of_all all rest)

theorem Addition.everyMention_of_all (all : ∀ name path, allowed name path = true) :
    ∀ operand, Addition.everyMention allowed operand = true
  | ⟨first, rest⟩ =>
    mentions_append (first.everyMention_of_all all) (addedMention_of_all all rest)

theorem addedMention_of_all (all : ∀ name path, allowed name path = true) :
    ∀ operands, addedMention allowed operands = true
  | [] => rfl
  | (_, operand) :: rest =>
    mentions_append (Multiplication.everyMention_of_all all operand) (addedMention_of_all all rest)

theorem Multiplication.everyMention_of_all (all : ∀ name path, allowed name path = true) :
    ∀ operand, Multiplication.everyMention allowed operand = true
  | ⟨first, rest⟩ =>
    mentions_append (first.everyMention_of_all all) (multipliedMention_of_all all rest)

theorem multipliedMention_of_all (all : ∀ name path, allowed name path = true) :
    ∀ operands, multipliedMention allowed operands = true
  | [] => rfl
  | (_, operand) :: rest =>
    mentions_append (Power.everyMention_of_all all operand) (multipliedMention_of_all all rest)

theorem Power.everyMention_of_all (all : ∀ name path, allowed name path = true) :
    ∀ operand, Power.everyMention allowed operand = true
  | ⟨operands⟩ => signedsMention_of_all all operands

theorem signedsMention_of_all (all : ∀ name path, allowed name path = true) :
    ∀ operands, signedsMention allowed operands = true
  | [] => rfl
  | operand :: rest =>
    mentions_append (Signed.everyMention_of_all all operand) (signedsMention_of_all all rest)

theorem Signed.everyMention_of_all (all : ∀ name path, allowed name path = true) :
    ∀ operand, Signed.everyMention allowed operand = true
  | ⟨_, term, tests⟩ =>
    mentions_append (term.everyMention_of_all all) (testedMention_of_all all tests)

theorem testedMention_of_all (all : ∀ name path, allowed name path = true) :
    ∀ operands, testedMention allowed operands = true
  | [] => rfl
  | (_, operand) :: rest =>
    mentions_append (Term.everyMention_of_all all operand) (testedMention_of_all all rest)

theorem Term.everyMention_of_all (all : ∀ name path, allowed name path = true) :
    ∀ term, Term.everyMention allowed term = true
  | ⟨.name name, path⟩ => all name path
  | ⟨.literal _, _⟩ | ⟨.countAll, _⟩ | ⟨.pattern _, _⟩ => rfl
  | ⟨.call _ _ arguments, _⟩ => argumentsMention_of_all all arguments
  | ⟨.parenthesized inner, _⟩ => inner.everyMention_of_all all

theorem Atom.everyMention_of_all (all : ∀ name path, allowed name path = true) :
    ∀ atom, Atom.everyMention allowed atom = true
  | .name name => all name []
  | .literal _ | .countAll | .pattern _ => rfl
  | .call _ _ arguments => argumentsMention_of_all all arguments
  | .parenthesized inner => inner.everyMention_of_all all

theorem argumentsMention_of_all (all : ∀ name path, allowed name path = true) :
    ∀ operands, argumentsMention allowed operands = true
  | [] => rfl
  | argument :: rest =>
    mentions_append (Expression.everyMention_of_all all argument) (argumentsMention_of_all all rest)

end

end

/-! ## Replacement -/

section

variable (name : String) (replacement : Expression)

mutual

/-- The expression with `(replacement)` for every mention of `name`. -/
def Expression.replace : Expression → Expression
  | ⟨operands⟩ => ⟨exclusionsReplace operands⟩

def exclusionsReplace : List Exclusion → List Exclusion
  | [] => []
  | operand :: rest => operand.replace :: exclusionsReplace rest

def Exclusion.replace : Exclusion → Exclusion
  | ⟨operands⟩ => ⟨conjunctionsReplace operands⟩

def conjunctionsReplace : List Conjunction → List Conjunction
  | [] => []
  | operand :: rest => operand.replace :: conjunctionsReplace rest

def Conjunction.replace : Conjunction → Conjunction
  | ⟨operands⟩ => ⟨comparisonsReplace operands⟩

def comparisonsReplace : List Comparison → List Comparison
  | [] => []
  | operand :: rest => operand.replace :: comparisonsReplace rest

def Comparison.replace : Comparison → Comparison
  | ⟨negated, left, rest⟩ => ⟨negated, left.replace, comparedReplace rest⟩

def comparedReplace :
    List (ComparisonOperator × Addition) → List (ComparisonOperator × Addition)
  | [] => []
  | (operator, operand) :: rest => (operator, operand.replace) :: comparedReplace rest

def Addition.replace : Addition → Addition
  | ⟨first, rest⟩ => ⟨first.replace, addedReplace rest⟩

def addedReplace :
    List (AdditiveOperator × Multiplication) → List (AdditiveOperator × Multiplication)
  | [] => []
  | (operator, operand) :: rest => (operator, operand.replace) :: addedReplace rest

def Multiplication.replace : Multiplication → Multiplication
  | ⟨first, rest⟩ => ⟨first.replace, multipliedReplace rest⟩

def multipliedReplace :
    List (MultiplicativeOperator × Power) → List (MultiplicativeOperator × Power)
  | [] => []
  | (operator, operand) :: rest => (operator, operand.replace) :: multipliedReplace rest

def Power.replace : Power → Power
  | ⟨operands⟩ => ⟨signedsReplace operands⟩

def signedsReplace : List Signed → List Signed
  | [] => []
  | operand :: rest => operand.replace :: signedsReplace rest

def Signed.replace : Signed → Signed
  | ⟨negative, term, tests⟩ => ⟨negative, term.replace, testedReplace tests⟩

def testedReplace : List (StringOperator × Term) → List (StringOperator × Term)
  | [] => []
  | (operator, operand) :: rest => (operator, operand.replace) :: testedReplace rest

def Term.replace : Term → Term
  | ⟨atom, path⟩ => ⟨atom.replace, path⟩

def Atom.replace : Atom → Atom
  | .name other => if other = name then .parenthesized replacement else .name other
  | .call function distinct arguments => .call function distinct (argumentsReplace arguments)
  | .parenthesized inner => .parenthesized inner.replace
  | .literal value => .literal value
  | .countAll => .countAll
  | .pattern pattern => .pattern pattern

def argumentsReplace : List Expression → List Expression
  | [] => []
  | argument :: rest => argument.replace :: argumentsReplace rest

end

end

end CypherSql.Cypher
