import CypherSql.Cypher.Parser.Outcome
import CypherSql.Cypher.Syntax
import CypherSql.Text.Identifier

/-! # Words, names and constants

* `Parser.char`, `Parser.token` — fixed characters.
* `Parser.spacing` — a construct with white space around it.
* `Parser.keyword` — a word in any case that does not run into a name.
* `Parser.symbolicName`, `Parser.variableName` — names, plain or between
  backquotes; a variable is never a reserved word.
* `Parser.literal` — constants.
-/

namespace CypherSql.Cypher.Parser

open CypherSql.Text (startsName continuesName sameIgnoringCase)
open CypherSql.Decimal (Binary64)

/-! ## Characters -/

def charOf (test : Char → Bool) : Parser Char
  | c :: rest => if test c then .accept c rest else unexpected (c :: rest)
  | [] => unexpected []

def char (c : Char) : Parser Char :=
  charOf (· == c)

def charsOf (test : Char → Bool) : Parser (List Char) :=
  fun input => .accept (input.takeWhile test) (input.dropWhile test)

def someCharsOf (test : Char → Bool) : Parser (List Char) :=
  fun input =>
    match input.takeWhile test with
    | [] => unexpected input
    | first :: rest => .accept (first :: rest) (input.dropWhile test)

/-- The rest of `input` behind `word`, if it begins with it. -/
def restBehind : List Char → List Char → Option (List Char)
  | [], input => some input
  | c :: word, d :: input => if c == d then restBehind word input else none
  | _ :: _, [] => none

def token (word : String) : Parser Unit :=
  fun input =>
    match restBehind word.toList input with
    | some rest => .accept () rest
    | none => unexpected input

/-! ## White space -/

/-- Space, tab and the two line ends. -/
def isSpacing (c : Char) : Bool :=
  c == ' ' || c == '\t' || c == '\r' || c == '\n'

def spaces : Parser (List Char) :=
  charsOf isSpacing

/-- A construct and the white space around it. -/
def spacing {α : Type} (parser : Parser α) : Parser α := do
  let _ ← spaces
  let value ← parser
  let _ ← spaces
  return value

/-! ## Keywords -/

/-- Lowercase for the comparison of keywords.  The Kelvin sign is a capital `k`. -/
def foldCase (c : Char) : Char :=
  if c.toNat == 0x212a then 'k' else c.toLower

/-- Whether two texts agree, up to case, as far as both go. -/
def agree : List Char → List Char → Bool
  | c :: left, d :: right => foldCase c == foldCase d && agree left right
  | _, _ => true

def byteLength : List Char → Nat
  | [] => 0
  | c :: rest => c.utf8Size + byteLength rest

def dropBytes : Nat → List Char → List Char
  | 0, text => text
  | _ + 1, [] => []
  | count + 1, c :: rest => dropBytes (count + 1 - c.utf8Size) rest

/-- A word in any case that no name character follows. -/
def keyword (word : String) : Parser Unit :=
  fun input =>
    if agree input word.toList && byteLength word.toList ≤ byteLength input then
      -- The word is cut off by bytes.  A Kelvin sign has more of them than the letter it stands for.
      let rest := dropBytes (byteLength word.toList) input
      match rest with
      | c :: _ => if continuesName c then unexpected rest else .accept () rest
      | [] => .accept () rest
    else unexpected input

/-! ## Names -/

def reservedWords : List String :=
  ["AND", "AS", "CONTAINS", "DISTINCT", "ENDS", "FALSE", "LIMIT", "MATCH", "NOT", "NULL", "OR",
    "RETURN", "SKIP", "STARTS", "TRUE", "WHERE", "WITH", "XOR"]

def isReserved (name : String) : Bool :=
  reservedWords.any (sameIgnoringCase · name)

def backquotedName : Parser String := do
  let _ ← char '\x60'
  let name ← someCharsOf (· != '\x60')
  let _ ← char '\x60'
  return String.ofList name

def plainName : Parser String := do
  let first ← charOf startsName
  let rest ← charsOf continuesName
  return String.ofList (first :: rest)

/-- The name of a label, a property or a function. -/
def symbolicName : Parser String :=
  orElse backquotedName plainName

/-- The name of a variable. -/
def variableName : Parser String :=
  satisfying (fun name => !isReserved name) symbolicName

/-! ## Constants -/

def digits : Parser (List Char) :=
  someCharsOf Char.isDigit

def valueOf (ds : List Char) : Nat :=
  ds.foldl (fun value d => 10 * value + (d.toNat - '0'.toNat)) 0

/-- Digits, a point and digits. -/
def floatLiteral : Parser Literal := do
  let whole ← digits
  let _ ← char '.'
  let fraction ← digits
  return .float (.nearest (valueOf (whole ++ fraction)) (Nat.pow 10 fraction.length))

def greatestInteger : Nat := Nat.pow 2 63 - 1

/-- A whole number that fits in 64 bits with a sign. -/
def integerLiteral : Parser Literal :=
  fun input =>
    match digits input with
    | .accept ds rest =>
      if valueOf ds ≤ greatestInteger then .accept (.integer (valueOf ds)) rest
      else .reject (.here input .invalidLiteral)
    | .reject error => .reject error
    | .abort error => .abort error

/-- Text between two quotes of one kind, without that quote inside. -/
def stringLiteral (quote : Char) : Parser Literal := do
  let _ ← char quote
  let text ← charsOf (· != quote)
  let _ ← char quote
  return .string (String.ofList text)

def wordLiteral (word : String) (value : Literal) : Parser Literal := do
  keyword word
  return value

def literal : Parser Literal :=
  oneOf
    -- A float begins as a whole number does, so it is tried first.
    [wordLiteral "TRUE" (.boolean true), wordLiteral "FALSE" (.boolean false),
      wordLiteral "NULL" .null, floatLiteral, integerLiteral, stringLiteral '\x27']
    (stringLiteral '\x22')

end CypherSql.Cypher.Parser
