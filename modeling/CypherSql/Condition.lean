/-! # Conditions

A condition is a tree of conjunctions and disjunctions over leaves of any type.
What is to be joined by `UNION` comes from a disjunction, so conditions are
expanded into clauses without one.

* `Condition` — the trees.
* `Condition.map` — the same tree over other leaves.
* `Condition.clauses` — the expansion: one clause a way in which the condition can
  hold.
* `Condition.flatten` — the same formula without a conjunction right under a
  conjunction, a disjunction right under a disjunction or a node with one child.
* `Condition.tokens`, `Condition.nestedTokens` — the written form, as it stands
  alone and as it stands under another operator.
-/

namespace CypherSql

/-- A tree of conjunctions and disjunctions.  `all []` always holds and `any []`
never does. -/
inductive Condition (α : Type) where
  | leaf (value : α)
  | all (children : List (Condition α))
  | any (children : List (Condition α))

namespace Condition

variable {α β : Type}

/-! ## Leaves -/

mutual

def map (f : α → β) : Condition α → Condition β
  | leaf value => .leaf (f value)
  | all children => .all (mapChildren f children)
  | any children => .any (mapChildren f children)

def mapChildren (f : α → β) : List (Condition α) → List (Condition β)
  | [] => []
  | child :: rest => map f child :: mapChildren f rest

end

def isLeaf : Condition α → Bool
  | leaf _ => true
  | _ => false

/-! ## Expansion -/

/-- Every condition on the left in conjunction with every one on the right. -/
def cross (left right : List (Condition α)) : List (Condition α) :=
  left.flatMap fun l => right.map fun r => .all [l, r]

mutual

/-- Clauses without disjunction, of which one holds when the condition holds.  A
conjunction combines the clauses of its children from left to right. -/
def clauses : Condition α → List (Condition α)
  | leaf value => [.all [.leaf value]]
  | any children => anyClauses children
  -- The empty conjunction holds in one way, so it has one clause.
  | all [] => [.all []]
  | all (first :: rest) => allClauses (clauses first) rest

def anyClauses : List (Condition α) → List (Condition α)
  | [] => []
  | child :: rest => clauses child ++ anyClauses rest

def allClauses (found : List (Condition α)) : List (Condition α) → List (Condition α)
  | [] => found
  -- Clauses are pairs of pairs here.  `flatten` makes one list of each later.
  | child :: rest => allClauses (cross found (clauses child)) rest

end

/-! ## Flattening -/

/-- The parts of a conjunction; any other condition is its own only part. -/
def conjuncts : Condition α → List (Condition α)
  | all children => children
  | other => [other]

def disjuncts : Condition α → List (Condition α)
  | any children => children
  | other => [other]

/-- A node over `children`, or the child itself when there is only one. -/
def nodeOver (node : List (Condition α) → Condition α) : List (Condition α) → Condition α
  | [only] => only
  | children => node children

mutual

/-- The same formula with nested nodes of one kind merged. -/
def flatten : Condition α → Condition α
  | leaf value => .leaf value
  | all children => nodeOver .all (mergedAll children)
  | any children => nodeOver .any (mergedAny children)

def mergedAll : List (Condition α) → List (Condition α)
  | [] => []
  | child :: rest => (flatten child).conjuncts ++ mergedAll rest

def mergedAny : List (Condition α) → List (Condition α)
  | [] => []
  | child :: rest => (flatten child).disjuncts ++ mergedAny rest

end

/-! ## Written form -/

/-- The words of a written condition. -/
inductive Token (α : Type) where
  | leaf (value : α)
  | and
  | or
  | opening
  | closing
  deriving DecidableEq, Repr

/-- A condition written to stand alone, and written to stand under an operator. -/
structure Written (α : Type) where
  bare : List (Token α)
  nested : List (Token α)

def Written.nothing : Written α :=
  ⟨[], []⟩

/-- Several parts with an operator between them.  They need parentheses where
something else stands around them; one part alone does not. -/
def Written.joined (operator : Token α) : List (Written α) → Written α
  | [] => .nothing
  | [only] => only
  | parts =>
    let bare := [operator].intercalate (parts.map Written.nested)
    ⟨bare, .opening :: bare ++ [.closing]⟩

/-- Whether anything is written at all: leaves for which `blank` holds leave no
trace. -/
def Written.isBlank (blank : α → Bool) (written : Written α) : Bool :=
  written.bare.all fun
    | .leaf value => blank value
    | _ => false

mutual

/-- Both written forms.  Children that leave no trace are passed over. -/
def written (blank : α → Bool) : Condition α → Written α
  | leaf value => ⟨[.leaf value], [.leaf value]⟩
  | all children => .joined .and (writtenChildren blank children)
  | any children => .joined .or (writtenChildren blank children)

def writtenChildren (blank : α → Bool) : List (Condition α) → List (Written α)
  | [] => []
  | child :: rest =>
    let first := written blank child
    -- An operator next to nothing would not be SQL.
    if first.isBlank blank then writtenChildren blank rest
    else first :: writtenChildren blank rest

end

def tokens (blank : α → Bool) (condition : Condition α) : List (Token α) :=
  (condition.written blank).bare

def nestedTokens (blank : α → Bool) (condition : Condition α) : List (Token α) :=
  (condition.written blank).nested

def Token.text (leafText : α → String) : Token α → String
  | leaf value => leafText value
  | and => " AND "
  | or => " OR "
  | opening => "("
  | closing => ")"

def text (leafText : α → String) (condition : Condition α) : String :=
  String.join ((condition.tokens fun value => (leafText value).isEmpty).map (Token.text leafText))

def nestedText (leafText : α → String) (condition : Condition α) : String :=
  String.join
    ((condition.nestedTokens fun value => (leafText value).isEmpty).map (Token.text leafText))

end Condition

end CypherSql
