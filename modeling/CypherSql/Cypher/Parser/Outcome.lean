import CypherSql.Text.Quoted

/-! # Outcomes of reading

* `Context` — what was being read where reading failed.
* `ParseError` — the failure point and the contexts around it, innermost first.
* `Outcome` — a value with the rest of the input, a failure after which another
  alternative may be tried, or a failure that ends reading.
* `Parser` — a function from the input to an outcome.
-/

namespace CypherSql.Cypher

open CypherSql.Text (quoted)

inductive Context where
  | unexpectedInput
  | invalidLiteral
  | nodePattern
  | matchClause
  | whereClause
  | withClause
  | returnClause
  | projectionAlias
  | skipClause
  | limitClause
  | requiredReturn
  deriving DecidableEq, Repr

def Context.name : Context → String
  | unexpectedInput => "unexpected input"
  | invalidLiteral => "invalid literal"
  | nodePattern => "node pattern"
  | matchClause => "match clause"
  | whereClause => "where clause"
  | withClause => "with clause"
  | returnClause => "return clause"
  | projectionAlias => "projection alias"
  | skipClause => "skip clause"
  | limitClause => "limit clause"
  | requiredReturn => "RETURN clause"

/-- A place in the input, given by what remains of it, and what was being read
there. -/
structure Entry where
  rest : List Char
  context : Context
  deriving DecidableEq, Repr

/-- Where reading failed, from the failure point outwards. -/
structure ParseError where
  entries : List Entry
  deriving DecidableEq, Repr

namespace ParseError

def here (rest : List Char) (context : Context) : ParseError :=
  ⟨[⟨rest, context⟩]⟩

/-- The failure seen from a construct that began at `start`. -/
def within (error : ParseError) (start : List Char) (context : Context) : ParseError :=
  ⟨error.entries ++ [⟨start, context⟩]⟩

def shownLength : Nat := 40

/-- One line an entry: the context and the beginning of the remaining input. -/
def message (error : ParseError) : String :=
  "\n".intercalate (error.entries.map fun entry =>
    entry.context.name ++ " at: " ++ String.ofList (quoted (entry.rest.take shownLength)))

end ParseError

inductive Outcome (α : Type) where
  | accept (value : α) (rest : List Char)
  | reject (error : ParseError)
  | abort (error : ParseError)

def Parser (α : Type) : Type :=
  List Char → Outcome α

namespace Parser

def succeed {α : Type} (value : α) : Parser α :=
  fun input => .accept value input

def andThen {α β : Type} (first : Parser α) (next : α → Parser β) : Parser β :=
  fun input =>
    match first input with
    | .accept value rest => next value rest
    | .reject error => .reject error
    | .abort error => .abort error

instance : Monad Parser where
  pure := succeed
  bind := andThen

def unexpected {α : Type} : Parser α :=
  fun input => .reject (.here input .unexpectedInput)

/-- Tries `second` where `first` is rejected.  Of two rejections the second one
is reported. -/
def orElse {α : Type} (first second : Parser α) : Parser α :=
  fun input =>
    match first input with
    | .reject _ => second input
    | outcome => outcome

def oneOf {α : Type} : List (Parser α) → Parser α → Parser α
  | [], last => last
  | first :: rest, last => orElse first (oneOf rest last)

/-- A value, or nothing where `parser` is rejected. -/
def optional {α : Type} (parser : Parser α) : Parser (Option α) :=
  fun input =>
    match parser input with
    | .accept value rest => .accept (some value) rest
    | .reject _ => .accept none input
    | .abort error => .abort error

/-- Gives up the other alternatives: a rejection ends reading. -/
def commit {α : Type} (parser : Parser α) : Parser α :=
  fun input =>
    match parser input with
    | .reject error => .abort error
    | outcome => outcome

/-- Adds what is being read to every failure of `parser`. -/
def inContext {α : Type} (context : Context) (parser : Parser α) : Parser α :=
  fun input =>
    match parser input with
    | .accept value rest => .accept value rest
    | .reject error => .reject (error.within input context)
    | .abort error => .abort (error.within input context)

/-- Rejects the values that fail `test`, as if nothing had been read. -/
def satisfying {α : Type} (test : α → Bool) (parser : Parser α) : Parser α :=
  fun input =>
    match parser input with
    | .accept value rest =>
      -- The failure is where the value began.
      if test value then .accept value rest else .reject (.here input .unexpectedInput)
    | .reject error => .reject error
    | .abort error => .abort error

def manyUpTo {α : Type} : Nat → Parser α → Parser (List α)
  | 0, _ => fun input => .accept [] input
  | fuel + 1, item => fun input =>
    match item input with
    | .accept value rest =>
      match manyUpTo fuel item rest with
      | .accept values final => .accept (value :: values) final
      | .reject error => .reject error
      | .abort error => .abort error
    -- What a rejected item has read is given back.
    | .reject _ => .accept [] input
    | .abort error => .abort error

/-- Reads `item` until it is rejected.  An item takes at least one character, so
the length of the input bounds their number. -/
def many {α : Type} (item : Parser α) : Parser (List α) :=
  fun input => manyUpTo (input.length + 1) item input

/-- One item or more, a separator between each two.  A separator that no item
follows is left unread. -/
def separated {α β : Type} (separator : Parser β) (item : Parser α) : Parser (List α) := do
  let first ← item
  let rest ← many (do let _ ← separator; item)
  return first :: rest

def separatedOrNone {α β : Type} (separator : Parser β) (item : Parser α) :
    Parser (List α) :=
  orElse (separated separator item) (succeed [])

end Parser

end CypherSql.Cypher
