import CypherSql.Cypher.Parser.Query
import CypherSql.Proofs.Cypher.Constants
import CypherSql.Proofs.Cypher.Patterns

/-! # Where a part of an expression ends

What stands behind a part of an expression decides whether the parser stops there.  The
marks that can stand there have ranks: a loop over operators of one rank goes on at the
marks of that rank and stops at every mark of a higher one.

* `OpensTerm`, `Leads`, `OpensExpression` — inputs that begin with a term, with a sum and
  with a whole expression.
* `Ending` — the marks, with their texts and ranks.
* `Tail` — a rest that begins with a mark of some rank or a higher one.
* `Tail.reader_rejects` — each loop stops at the marks of higher ranks.
* `Tail.endsAtom` — an atom ends at every mark.
-/

namespace CypherSql.Cypher.Parser

open CypherSql.Text (startsName continuesName isIdentifier)

variable {input more rest : List Char} {level : Nat}

/-! ## Beginnings -/

structure OpensExpression (input : List Char) : Prop where
  bare : dropSpaces input = input
  notDistinct : Rejects (keyword "DISTINCT") input
  notStar : Rejects (char '*') input
  -- Behind a parenthesis it does not read as a node that a hop follows.
  notPattern : Rejects patternAtom ('(' :: input)

structure OpensTerm (input : List Char) : Prop extends OpensExpression input where
  notNot : Rejects (keyword "NOT") input
  notMinus : Rejects (char '-') input
  notPlus : Rejects (char '+') input
  notBracket : Rejects (char '[') input

/-- An input that begins with a term, behind a minus if `negative`. -/
def Leads (negative : Bool) (input : List Char) : Prop :=
  if negative then ∃ more, input = '-' :: more ∧ OpensTerm more else OpensTerm input

theorem Leads.notNot {negative : Bool} (leads : Leads negative input) :
    Rejects (keyword "NOT") input := by
  cases negative with
  | false => exact OpensTerm.notNot leads
  | true =>
    obtain ⟨more, rfl, -⟩ := leads
    exact ⟨_, rfl⟩

theorem Leads.opensExpression {negative : Bool} (leads : Leads negative input) :
    OpensExpression input := by
  cases negative with
  | false => exact OpensTerm.toOpensExpression leads
  | true =>
    obtain ⟨more, rfl, -⟩ := leads
    exact ⟨rfl, ⟨_, rfl⟩, ⟨_, rfl⟩, ⟨_, rfl⟩⟩

/-! ## Marks -/

/-- What can stand behind a part of an expression, or behind a list of items. -/
inductive Ending where
  | test (operator : StringOperator)
  | power
  | scale (operator : MultiplicativeOperator)
  | add (operator : AdditiveOperator)
  | compare (operator : ComparisonOperator)
  | and
  | xor
  | or
  | naming
  | comma
  | close
  | condition
  | skip
  | limit
  | matching
  | passing
  | returning
  | semicolon

namespace Ending

def chars : Ending → List Char
  | test operator => spaced operator.symbol
  | power => spaced "^"
  | scale operator => spaced operator.symbol
  | add operator => spaced operator.symbol
  | compare operator => spaced operator.symbol
  | and => spaced "AND"
  | xor => spaced "XOR"
  | or => spaced "OR"
  | naming => spaced "AS"
  | comma => [',', ' ']
  | close => [')']
  | condition => spaced "WHERE"
  | skip => spaced "SKIP"
  | limit => spaced "LIMIT"
  | matching => spaced "MATCH"
  | passing => spaced "WITH"
  | returning => spaced "RETURN"
  | semicolon => [';']

/-- The loops stop at marks of a rank above their own. -/
def rank : Ending → Nat
  | test _ => 0
  | power => 1
  | scale _ => 2
  | add _ => 3
  | compare _ => 4
  | and => 5
  | xor => 6
  | or => 7
  | naming => 8
  | comma => 9
  | close | condition => 10
  | skip => 11
  | limit => 12
  | matching | passing | returning | semicolon => 13

/-- What may stand behind a mark.  `<` and `-` could begin an arrow, and what is behind a
closing parenthesis could make a pattern of what is in front of it. -/
def Allows : Ending → List Char → Prop
  | compare .less, more => ∃ negative, Leads negative more
  | add .minus, more => OpensTerm more
  | close, more => Rejects hop (dropSpaces more)
  | _, _ => True

end Ending

/-- A rest that begins with a mark of rank `level` or higher, or is empty. -/
def Tail (level : Nat) (rest : List Char) : Prop :=
  rest = [] ∨ ∃ (ending : Ending) (more : List Char),
    rest = ending.chars ++ more ∧ level ≤ ending.rank ∧ ending.Allows more

theorem tail_nil : Tail level [] :=
  .inl rfl

theorem tail_ending {ending : Ending} (high : level ≤ ending.rank)
    (allowed : ending.Allows more) : Tail level (ending.chars ++ more) :=
  .inr ⟨ending, more, rfl, high, allowed⟩

theorem Tail.mono {lower : Nat} (tail : Tail level rest) (less : lower ≤ level) :
    Tail lower rest := by
  rcases tail with rfl | ⟨ending, more, rfl, high, allowed⟩
  · exact tail_nil
  · exact tail_ending (le_trans less high) allowed

/-! ## Where the loops stop -/

def ignoring {α : Type} (parser : Parser α) : Parser Unit := do
  let _ ← parser
  return ()

theorem rejects_of_ignoring {α : Type} {parser : Parser α}
    (rejected : Rejects (ignoring parser) input) : Rejects parser input := by
  obtain ⟨error, failed⟩ := rejected
  have opened : andThen parser (fun _ => pure ()) input = .reject error := failed
  cases outcome : parser input with
  | accept value rest => simp [andThen, outcome, pure_accepts] at opened
  | reject error => exact ⟨error, outcome⟩
  | abort error => simp [andThen, outcome] at opened

/-- The parser that goes on at the marks of one rank. -/
def Ending.reader : Ending → Parser Unit
  | test _ => ignoring stringOperator
  | power => ignoring (char '^')
  | scale _ => ignoring multiplicativeOperator
  | add _ => ignoring additiveOperator
  | compare _ => ignoring comparisonOperator
  | and => keyword "AND"
  | xor => keyword "XOR"
  | or => keyword "OR"
  | naming => keyword "AS"
  | comma => ignoring (char ',')
  | close => ignoring (char ')')
  | condition => keyword "WHERE"
  | skip => keyword "SKIP"
  | limit => keyword "LIMIT"
  | matching => keyword "MATCH"
  | passing => keyword "WITH"
  | returning => keyword "RETURN"
  | semicolon => ignoring (char ';')

/-- No mark is read where another mark of a higher rank stands. -/
theorem Tail.reader_rejects (tail : Tail level rest) (mark : Ending) (low : mark.rank < level) :
    Rejects mark.reader (dropSpaces rest) := by
  rcases tail with rfl | ⟨ending, more, rfl, high, -⟩
  · cases mark <;> exact ⟨_, rfl⟩
  · have above : mark.rank < ending.rank := lt_of_lt_of_le low high
    -- Marks of different ranks differ in what the reader looks at first.
    clear low high
    cases ending <;> try (rename_i operator; cases operator)
    all_goals cases mark <;>
      first | (simp [Ending.rank] at above; done) | exact ⟨_, rfl⟩

theorem Tail.comma_rejects (tail : Tail 10 rest) : Rejects (char ',') (dropSpaces rest) :=
  rejects_of_ignoring (tail.reader_rejects .comma (by decide))

/-! ## Where atoms end -/

/-- A relationship is turned down behind its first dash where neither a bracket nor the
second dash follows. -/
theorem relationshipPattern_rejects {left : Option Char} {middle : List Char}
    (arrow : optional (char '<') input = .accept left middle)
    (dash : spacedChar '-' middle = .accept '-' rest)
    (notBracket : Rejects (char '[') (dropSpaces rest))
    (notDash : Rejects (char '-') (dropSpaces rest)) : Rejects relationshipPattern input := by
  have noDetail : Rejects relationshipDetail rest := bind_rejects (spacing_rejects notBracket)
  have noDash : Rejects (spacedChar '-') rest := bind_rejects_next spaces_accepts notDash
  exact bind_rejects_next arrow <| bind_rejects_next dash <|
    bind_rejects_next (optional_rejected noDetail) (bind_rejects noDash)

theorem hop_rejects_minus (opens : OpensTerm more) : Rejects hop ('-' :: ' ' :: more) := by
  refine bind_rejects (spacing_rejects ?_)
  refine @relationshipPattern_rejects _ (' ' :: more) none ('-' :: ' ' :: more) rfl rfl ?_ ?_
  · rw [dropSpaces_space, opens.bare]
    exact opens.notBracket
  · rw [dropSpaces_space, opens.bare]
    exact opens.notMinus

theorem hop_rejects_less {negative : Bool} (leads : Leads negative more) :
    Rejects hop ('<' :: ' ' :: more) := by
  refine bind_rejects (spacing_rejects ?_)
  cases negative with
  | false =>
    have opens : OpensTerm more := leads
    have noDash : Rejects (char '-') (dropSpaces (' ' :: more)) := by
      rw [dropSpaces_space, opens.bare]
      exact opens.notMinus
    exact bind_rejects_next (optional_accepts char_accepts)
      (bind_rejects (bind_rejects_next spaces_accepts noDash))
  | true =>
    obtain ⟨term, rfl, opens⟩ := leads
    -- `< -` reads as the beginning of an arrow, so the second dash has to be missing.
    refine @relationshipPattern_rejects _ term (some '<') (' ' :: '-' :: term) rfl rfl ?_ ?_
    · rw [opens.bare]
      exact opens.notBracket
    · rw [opens.bare]
      exact opens.notMinus

theorem Tail.hop_rejects (tail : Tail level rest) : Rejects hop (dropSpaces rest) := by
  rcases tail with rfl | ⟨ending, more, rfl, -, allowed⟩
  · exact ⟨_, rfl⟩
  · cases ending with
    | add operator =>
      cases operator with
      | plus => exact ⟨_, rfl⟩
      | minus => exact hop_rejects_minus allowed
    | compare operator =>
      cases operator with
      | less =>
        obtain ⟨negative, leads⟩ := allowed
        exact hop_rejects_less leads
      | _ => exact ⟨_, rfl⟩
    | test operator => cases operator <;> exact ⟨_, rfl⟩
    | scale operator => cases operator <;> exact ⟨_, rfl⟩
    | _ => exact ⟨_, rfl⟩

/-- A rest that does not make a pattern of a name between parentheses. -/
def ClosesNoNode (rest : List Char) : Prop :=
  Rejects (char ')') (dropSpaces rest) ∨
    ∃ more, dropSpaces rest = ')' :: more ∧ Rejects hop (dropSpaces more)

/-- A rest where an atom ends: no name, number, call or pattern goes on with it. -/
structure EndsAtom (rest : List Char) : Prop where
  boundary : Boundary rest
  fractionless : Fractionless rest
  notCall : Rejects (char '(') (dropSpaces rest)
  notLabel : Rejects (char ':') (dropSpaces rest)
  notHop : Rejects hop (dropSpaces rest)
  -- A name that a parenthesis closes could be a node.  No hop follows it then.
  closes : ClosesNoNode rest

theorem Ending.chars_opening (ending : Ending) :
    ∃ c others, ending.chars = c :: others ∧ continuesName c = false ∧ c ≠ '.' := by
  cases ending <;> exact ⟨_, _, rfl, rfl, by decide⟩

theorem Ending.visible_opening (ending : Ending) :
    ∃ c others, dropSpaces (ending.chars ++ more) = c :: others ∧ c ∉ ['(', ':', '.'] := by
  cases ending with
  | test operator | scale operator | add operator | compare operator =>
    cases operator <;> exact ⟨_, _, rfl, by decide⟩
  | _ => exact ⟨_, _, rfl, by decide⟩

/-- No call, label or property goes on at a mark. -/
theorem Tail.char_rejects (tail : Tail level rest) {c : Char} (among : c ∈ ['(', ':', '.']) :
    Rejects (char c) (dropSpaces rest) := by
  rcases tail with rfl | ⟨ending, more, rfl, -, -⟩
  · exact ⟨_, rfl⟩
  · obtain ⟨first, others, opening, noMark⟩ := @Ending.visible_opening more ending
    rw [opening]
    exact Parser.char_rejects fun same => noMark (same ▸ among)

theorem Tail.endsAtom (tail : Tail level rest) : EndsAtom rest := by
  have notHop := tail.hop_rejects
  have notCall := tail.char_rejects (by decide : '(' ∈ ['(', ':', '.'])
  have notLabel := tail.char_rejects (by decide : ':' ∈ ['(', ':', '.'])
  rcases tail with rfl | ⟨ending, more, rfl, -, allowed⟩
  · exact ⟨by simp [Boundary], by simp [Fractionless], notCall, notLabel, notHop, .inl ⟨_, rfl⟩⟩
  · obtain ⟨c, others, chars, noName, noPoint⟩ := ending.chars_opening
    have boundary : Boundary (ending.chars ++ more) := by simpa [Boundary, chars] using noName
    have fractionless : Fractionless (ending.chars ++ more) := by
      simp [Fractionless, chars, noPoint]
    refine ⟨boundary, fractionless, notCall, notLabel, notHop, ?_⟩
    clear chars boundary fractionless notCall notLabel notHop
    cases ending with
    | close => exact .inr ⟨more, rfl, allowed⟩
    | test operator | scale operator | add operator | compare operator =>
      cases operator <;> exact .inl ⟨_, rfl⟩
    | _ => exact .inl ⟨_, rfl⟩

theorem endsAtom_property {key : String} (plain : isIdentifier key = true) :
    EndsAtom ('.' :: (key.toList ++ rest)) := by
  obtain ⟨first, others, chars, starts, -⟩ := isIdentifier_chars plain
  have fractionless : Fractionless ('.' :: (key.toList ++ rest)) := by
    intro d more same
    obtain rfl : first = d := by simpa [chars] using congrArg List.tail same |> congrArg List.head?
    exact isDigit_of_startsName starts
  have boundary : Boundary ('.' :: (key.toList ++ rest)) := by
    intro c isHead
    obtain rfl : '.' = c := by simpa using isHead
    rfl
  exact ⟨boundary, fractionless, ⟨_, rfl⟩, ⟨_, rfl⟩, ⟨_, rfl⟩, .inl ⟨_, rfl⟩⟩

theorem Tail.property_rejects (tail : Tail level rest) : Rejects property (dropSpaces rest) := by
  refine spacing_rejects (bind_rejects ?_)
  rw [dropSpaces_dropSpaces]
  exact tail.char_rejects (by decide)

end CypherSql.Cypher.Parser
