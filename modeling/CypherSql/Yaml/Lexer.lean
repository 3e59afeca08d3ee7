import CypherSql.Yaml.Token

/-! # From text to tokens

Tokens are read from left to right.  Outside of brackets a column further on opens a block
and one further back closes it.  That something was a key is known at its colon only, so
the last place where a key may have begun is kept, and its tokens are put in later.

* `Candidate` — a place where a key may have begun.
* `Lexer` — what has been read, and how it bears on what follows.
* `Lexer.step` — reads one token.
* `tokens?` — all tokens of a text.
-/

namespace CypherSql.Yaml

/-- A place where a key may have begun, and how many tokens are before it.  A key is
required where nothing else can go on with the block. -/
structure Candidate where
  required : Bool
  number : Nat
  start : Glyph
  deriving DecidableEq, Repr

/-- Whether a colon at `glyph` comes too late: a key stands on one line and has at most 1024
bytes. -/
def Candidate.isStale (candidate : Candidate) (glyph : Glyph) : Bool :=
  candidate.start.line < glyph.line || candidate.start.offset + 1024 < glyph.offset

/-- The candidate, unless it is stale.  A required one must not be. -/
def Candidate.fresh? (glyph : Glyph) : Option Candidate → Option (Option Candidate)
  | none => some none
  | some candidate =>
    if !candidate.isStale glyph then some (some candidate)
    else if candidate.required then none
    else some none

/-- What has been read: the tokens, last one first, and the columns of the blocks that are
open, last one first.  `candidate` is where a key may have begun since the last bracket
that is still open, `outer` holds the same for every bracket around it. -/
structure Lexer where
  rest : List Glyph
  tokens : List Token
  columns : List Nat
  keyAllowed : Bool
  candidate : Option Candidate
  outer : List (Option Candidate)
  deriving DecidableEq, Repr

namespace Lexer

def start (glyphs : List Glyph) : Lexer :=
  ⟨glyphs, [], [], true, none, []⟩

def inFlow (lexer : Lexer) : Bool :=
  !lexer.outer.isEmpty

/-- The least column of what belongs to the last block. -/
def least (lexer : Lexer) : Nat :=
  match lexer.columns with
  | [] => 0
  | column :: _ => column + 1

/-! ## White space and comments -/

/-- What follows white space and comments, and whether a key may begin there.  Tabs are
white space where no block can begin. -/
def skipFrom (flow keyAllowed comment : Bool) : List Glyph → Bool × List Glyph
  | [] => (keyAllowed, [])
  | glyph :: rest =>
    if isLineEnd glyph then skipFrom flow (keyAllowed || !flow) false rest
    else if comment || glyph.char == ' ' || (glyph.char == '\t' && (flow || !keyAllowed)) then
      skipFrom flow keyAllowed comment rest
    else if glyph.char == '#' then skipFrom flow keyAllowed true rest
    else (keyAllowed, glyph :: rest)

def skip (lexer : Lexer) : Lexer :=
  let (keyAllowed, rest) := skipFrom lexer.inFlow lexer.keyAllowed false lexer.rest
  { lexer with keyAllowed, rest }

/-! ## Candidates and blocks -/

/-- Forgets the candidates that are too old for a key that ends at `glyph`. -/
def refresh (lexer : Lexer) (glyph : Glyph) : Option Lexer := do
  let candidate ← Candidate.fresh? glyph lexer.candidate
  let outer ← lexer.outer.mapM (Candidate.fresh? glyph)
  some { lexer with candidate, outer }

def discard (lexer : Lexer) : Option Lexer :=
  if lexer.candidate.any (·.required) then none else some { lexer with candidate := none }

def propose (lexer : Lexer) (glyph : Glyph) : Option Lexer :=
  if lexer.keyAllowed then do
    let lexer ← lexer.discard
    let required := !lexer.inFlow && lexer.columns.head? == some glyph.column
    some { lexer with candidate := some ⟨required, lexer.tokens.length, glyph⟩ }
  else some lexer

def add (lexer : Lexer) (token : Token) (keyAllowed : Bool) (rest : List Glyph) : Lexer :=
  { lexer with rest, tokens := token :: lexer.tokens, keyAllowed }

def insertAt (lexer : Lexer) (token : Token) (number : Nat) : Lexer :=
  let later := lexer.tokens.length - number
  { lexer with tokens := lexer.tokens.take later ++ token :: lexer.tokens.drop later }

/-- Opens a block behind the first `number` tokens, if the column is further on than those
of the open blocks. -/
def openBlock (lexer : Lexer) (token : Token) (column number : Nat) : Lexer :=
  if !lexer.inFlow && lexer.least ≤ column then
    { lexer.insertAt token number with columns := column :: lexer.columns }
  else lexer

def closeBlocks (lexer : Lexer) (isOver : Nat → Bool) : Lexer :=
  if lexer.inFlow then lexer
  else
    let closed := lexer.columns.takeWhile isOver
    { lexer with
      tokens := closed.map (fun _ => .blockEnd) ++ lexer.tokens
      columns := lexer.columns.dropWhile isOver }

/-! ## Tokens -/

def outside (lexer : Lexer) (token : Token) (rest : List Glyph) : Option Lexer :=
  (lexer.closeBlocks fun _ => true).discard.map fun lexer => lexer.add token false rest

def openFlow (lexer : Lexer) (glyph : Glyph) (token : Token) (rest : List Glyph) :
    Option Lexer :=
  (lexer.propose glyph).map fun lexer =>
    { lexer.add token true rest with candidate := none, outer := lexer.candidate :: lexer.outer }

def closeFlow (lexer : Lexer) (token : Token) (rest : List Glyph) : Option Lexer :=
  lexer.discard.map fun lexer =>
    let lexer := lexer.add token false rest
    match lexer.outer with
    | [] => lexer
    | candidate :: outer => { lexer with candidate, outer }

/-- A mark that begins an item or a key, and the block with it if it is the first one. -/
def mark (lexer : Lexer) (glyph : Glyph) (block token : Token) (keyAllowed : Bool)
    (rest : List Glyph) : Option Lexer :=
  if !lexer.inFlow && !lexer.keyAllowed then none
  else
    (lexer.openBlock block glyph.column lexer.tokens.length).discard.map fun lexer =>
      lexer.add token keyAllowed rest

/-- A colon.  What was read from the candidate on is its key, if there is one. -/
def colon (lexer : Lexer) (glyph : Glyph) (rest : List Glyph) : Option Lexer :=
  match lexer.candidate with
  | some candidate =>
    let lexer := lexer.insertAt .key candidate.number
    let lexer := lexer.openBlock .blockMapping candidate.start.column candidate.number
    some { lexer.add .value false rest with candidate := none }
  | none => lexer.mark glyph .blockMapping .value (!lexer.inFlow) rest

/-- A token with a name, or a scalar, which may all begin a key. -/
def content (lexer : Lexer) (glyph : Glyph) (read : Option (Token × Bool × List Glyph)) :
    Option Lexer := do
  let lexer ← lexer.propose glyph
  let (token, keyAllowed, rest) ← read
  some (lexer.add token keyAllowed rest)

def block (lexer : Lexer) (style : Style) (rest : List Glyph) : Option Lexer := do
  let lexer ← lexer.discard
  let (text, rest) ← Yaml.block (style == .folded) lexer.least rest
  some (lexer.add (.scalar text style) true rest)

def tokenAt (lexer : Lexer) (glyph : Glyph) (rest : List Glyph) : Option Lexer :=
  let flow := lexer.inFlow
  let alone := flow || endsWord rest
  match glyph.char with
  | '[' => lexer.openFlow glyph .openBracket rest
  | '\x7b' => lexer.openFlow glyph .openBrace rest
  | ']' => lexer.closeFlow .closeBracket rest
  | '\x7d' => lexer.closeFlow .closeBrace rest
  | ',' => lexer.discard.map fun lexer => lexer.add .comma true rest
  | '*' => lexer.content glyph ((readName rest).map fun (name, rest) => (.alias name, false, rest))
  | '&' => lexer.content glyph ((readName rest).map fun (name, rest) => (.anchor name, false, rest))
  | '!' =>
    lexer.content glyph ((readTag flow (glyph :: rest)).map fun (tag, rest) => (tag, false, rest))
  | '\x27' =>
    lexer.content glyph
      ((single [] .none rest).map fun (text, rest) => (.scalar text .single, false, rest))
  | '\x22' =>
    lexer.content glyph
      ((double [] .none 0 0 rest).map fun (text, rest) => (.scalar text .double, false, rest))
  | c =>
    if c == '-' && endsWord rest then lexer.mark glyph .blockSequence .dash true rest
    else if c == '?' && alone then lexer.mark glyph .blockMapping .key (!flow) rest
    else if c == ':' && alone then lexer.colon glyph rest
    else if c == '|' && !flow then lexer.block .literal rest
    else if c == '>' && !flow then lexer.block .folded rest
    else if opensPlain flow glyph rest then
      lexer.content glyph
        ((plain flow lexer.least [] .none (glyph :: rest)).map fun (text, broken, rest) =>
          (.scalar text .plain, broken, rest))
    else none

/-- Reads the token at `glyph`.  Directives and markers stand at the beginning of a line and
end everything before them. -/
def step (lexer : Lexer) (glyph : Glyph) (rest : List Glyph) : Option Lexer := do
  let lexer ← lexer.refresh glyph
  let lexer := lexer.closeBlocks fun column => glyph.column < column
  if glyph.column == 0 && glyph.char == '%' then
    let (token, rest) ← readDirective rest
    lexer.outside token rest
  else
    match marker? (glyph :: rest) with
    | some '-' => lexer.outside .documentStart (rest.drop 2)
    | some _ => lexer.outside .documentEnd (rest.drop 2)
    | none => lexer.tokenAt glyph rest

def finish (lexer : Lexer) : Option (List Token) :=
  (lexer.closeBlocks fun _ => true).discard.map fun lexer => lexer.tokens.reverse

/-- The tokens of a text of which some have been read, in at most `fuel` steps. -/
def run : Nat → Lexer → Option (List Token)
  | 0, _ => none
  | fuel + 1, lexer =>
    let lexer := lexer.skip
    match lexer.rest with
    | [] => lexer.finish
    | glyph :: rest => (lexer.step glyph rest).bind (run fuel)

end Lexer

/-- All tokens of a text.  Every step reads a character at least. -/
def tokens? (text : String) : Option (List Token) := do
  let glyphs ← glyphs? text
  (Lexer.start glyphs).run (glyphs.length + 1)

end CypherSql.Yaml
