import CypherSql.Yaml.Scalar

/-! # Scalars as blocks of lines

Behind a bar or an angle the indented lines that follow are one text.  A bar keeps the
line ends, an angle folds those between two lines that begin with a word.

* `Chomp` — what happens to the line ends behind the last line.
* `block` — a whole block from behind its mark.
-/

namespace CypherSql.Yaml

/-- What happens to the line ends behind the last line: all are left out, one is kept, or
all are kept. -/
inductive Chomp where
  | strip
  | clip
  | keep
  deriving DecidableEq, Repr

/-! ## The line of the mark -/

def readChomp : List Glyph → Option Chomp × List Glyph
  | [] => (none, [])
  | glyph :: rest =>
    if glyph.char == '+' then (some .keep, rest)
    else if glyph.char == '-' then (some .strip, rest)
    else (none, glyph :: rest)

def readIndent : List Glyph → Option Nat × List Glyph
  | [] => (none, [])
  | glyph :: rest =>
    if glyph.char.isDigit then (some (glyph.char.toNat - '0'.toNat), rest)
    else (none, glyph :: rest)

/-- The sign and the digit, in any order, and the lines below.  The digit is not zero. -/
def readHeader (glyphs : List Glyph) : Option (Chomp × Option Nat × List Glyph) := do
  let (before, rest) := readChomp glyphs
  let (indent, rest) := readIndent rest
  let (chomp, rest) := if before.isSome then (before, rest) else readChomp rest
  if indent == some 0 then none
  else
    let rest ← nextLine? rest
    some (chomp.getD .clip, indent, rest)

/-! ## The lines -/

/-- The column of the first line with a word, or that of an empty line before it when it is
further on.  Tabs cannot indent. -/
def findIndent (widest : Nat) : List Glyph → Option Nat
  | [] => some widest
  | glyph :: rest =>
    if glyph.char == ' ' then findIndent widest rest
    else if glyph.char == '\t' then none
    else if isLineEnd glyph then findIndent (max widest glyph.column) rest
    else some (max widest glyph.column)

/-- The lines that have been read, last character first.  `ends` holds the end of the last
line and `empty` those of the empty lines behind it; `spaced` tells whether that line began
with a space. -/
structure Lines where
  text : List Char
  ends : List Char
  empty : List Char
  spaced : Bool
  deriving DecidableEq, Repr

def Lines.addLine (lines : Lines) (fold : Bool) (glyph : Glyph) : Lines :=
  let ends :=
    if fold && lines.ends == ['\n'] && !lines.spaced && !isSpace glyph then
      if lines.empty.isEmpty then [' '] else []
    else lines.ends
  ⟨glyph.char :: (lines.empty ++ ends ++ lines.text), [], [], isSpace glyph⟩

def Lines.finish (lines : Lines) (chomp : Chomp) : String :=
  let text := match chomp with
    | .strip => lines.text
    | .clip => lines.ends ++ lines.text
    | .keep => lines.empty ++ lines.ends ++ lines.text
  String.ofList text.reverse

/-- Reads lines that are indented by `indent` columns.  `inside` holds within a line. -/
def readLines (fold : Bool) (chomp : Chomp) (indent : Nat) (lines : Lines) (inside : Bool) :
    List Glyph → Option (String × List Glyph)
  | [] => some (lines.finish chomp, [])
  | glyph :: rest =>
    if isLineEnd glyph then
      let lines :=
        if inside then { lines with ends := [glyph.char] }
        else { lines with empty := glyph.char :: lines.empty }
      readLines fold chomp indent lines false rest
    else if inside then
      readLines fold chomp indent { lines with text := glyph.char :: lines.text } true rest
    else if glyph.column < indent && glyph.char == ' ' then
      readLines fold chomp indent lines false rest
    else if glyph.column < indent && glyph.char == '\t' then none
    else if glyph.column == indent then
      readLines fold chomp indent (lines.addLine fold glyph) true rest
    else some (lines.finish chomp, glyph :: rest)

/-- Reads a block from behind its mark.  Its lines are indented as the digit says, counted
from the collection around it, else as their first one, but by `least` columns. -/
def block (fold : Bool) (least : Nat) (glyphs : List Glyph) : Option (String × List Glyph) := do
  let (chomp, digit, rest) ← readHeader glyphs
  let indent ← match digit with
    | some digit => some (least - 1 + digit)
    | none => (findIndent 0 rest).map fun column => max column (max least 1)
  readLines fold chomp indent ⟨[], [], [], false⟩ false rest

end CypherSql.Yaml
