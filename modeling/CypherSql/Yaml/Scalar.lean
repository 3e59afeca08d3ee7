import CypherSql.Text.Digits
import CypherSql.Yaml.Glyph

/-! # Scalars

A scalar may go over several lines.  The white space between two of its words is folded:
a line end alone becomes a space, and of several line ends the first is left out.

* `Style` — how a scalar is written.
* `Gap` — the white space between two words.
* `plain`, `single`, `double` — scalars without quotes and in quotes.
-/

namespace CypherSql.Yaml

/-- How a scalar is written: without quotes, in quotes, or as a block of lines. -/
inductive Style where
  | plain
  | single
  | double
  | literal
  | folded
  deriving DecidableEq, Repr

/-! ## Gaps -/

/-- The white space read since the last word, last character first.  Once `broken` by a
line end it consists of the `first` line end, unless that was escaped, and the `further`
ones. -/
structure Gap where
  blanks : List Char
  broken : Bool
  first : Option Char
  further : List Char
  deriving DecidableEq, Repr

namespace Gap

def none : Gap :=
  ⟨[], false, .none, []⟩

def escaped : Gap :=
  ⟨[], true, .none, []⟩

def isNone (gap : Gap) : Bool :=
  !gap.broken && gap.blanks.isEmpty

/-- What the gap reads as, last character first. -/
def folded (gap : Gap) : List Char :=
  if gap.broken then
    match gap.first with
    | some '\n' => if gap.further.isEmpty then [' '] else gap.further
    | some c => gap.further ++ [c]
    | .none => gap.further
  else gap.blanks

/-- The gap with one more space or tab, which does not count behind a line end. -/
def addBlank (gap : Gap) (c : Char) : Gap :=
  if gap.broken then gap else { gap with blanks := c :: gap.blanks }

/-- The gap with one more line end.  Blanks in front of the first one do not count. -/
def addLineEnd (gap : Gap) (c : Char) : Gap :=
  if gap.broken then { gap with further := c :: gap.further } else ⟨[], true, some c, []⟩

end Gap

/-! ## Scalars without quotes -/

def flowIndicators : List Char :=
  [',', '[', ']', '\x7b', '\x7d']

def indicators : List Char :=
  flowIndicators ++ "-?:#&*!|>'\"%@`".toList

/-- Whether a plain scalar begins here.  A hyphen opens one when it is not alone, and so
do a question mark and a colon outside of brackets. -/
def opensPlain (flow : Bool) (glyph : Glyph) (rest : List Glyph) : Bool :=
  !(indicators.contains glyph.char || isSpace glyph || isLineEnd glyph) ||
    (!endsWord rest &&
      (glyph.char == '-' || (!flow && (glyph.char == '?' || glyph.char == ':'))))

/-- Whether a plain scalar ends in front of a character: at a colon that ends a word, at a
character with a meaning between brackets, and behind a gap at a comment, at a marker and
at a column that is not indented enough. -/
def closesPlain (flow : Bool) (least : Nat) (gap : Gap) (glyph : Glyph) (rest : List Glyph) :
    Bool :=
  (glyph.char == ':' && endsWord rest) || (flow && flowIndicators.contains glyph.char) ||
    (!gap.isNone && (glyph.char == '#' || (marker? (glyph :: rest)).isSome ||
      (!flow && glyph.column < least)))

/-- Reads a plain scalar, of which the `text` up to a gap has been read, last character
first.  Its lines are indented by `least` columns, and not with tabs.  The gap behind it is
passed over; the flag tells whether a line ended there. -/
def plain (flow : Bool) (least : Nat) (text : List Char) (gap : Gap) :
    List Glyph → Option (String × Bool × List Glyph)
  | [] => some (String.ofList text.reverse, gap.broken, [])
  | glyph :: rest =>
    if isLineEnd glyph then plain flow least text (gap.addLineEnd glyph.char) rest
    else if isSpace glyph then
      if gap.broken && glyph.char == '\t' && glyph.column < least then none
      else plain flow least text (gap.addBlank glyph.char) rest
    else if closesPlain flow least gap glyph rest then
      some (String.ofList text.reverse, gap.broken, glyph :: rest)
    else if flow && glyph.char == ':' && startsWith ('?' :: flowIndicators) rest then none
    else plain flow least (glyph.char :: (gap.folded ++ text)) .none rest

/-! ## Scalars in quotes -/

/-- Reads a scalar in single quotes from behind the first one.  A quote inside is written
twice. -/
def single (text : List Char) (gap : Gap) : List Glyph → Option (String × List Glyph)
  | [] => none
  | glyph :: rest =>
    if isLineEnd glyph then single text (gap.addLineEnd glyph.char) rest
    else if isSpace glyph then single text (gap.addBlank glyph.char) rest
    else if (marker? (glyph :: rest)).isSome then none
    else if glyph.char == '\x27' then
      match rest with
      | next :: rest' =>
        if next.char == '\x27' then single ('\x27' :: (gap.folded ++ text)) .none rest'
        else some (String.ofList (gap.folded ++ text).reverse, rest)
      | [] => some (String.ofList (gap.folded ++ text).reverse, rest)
    else single (glyph.char :: (gap.folded ++ text)) .none rest

def escaped? : Char → Option Char
  | '0' => some '\x00'
  | 'a' => some '\x07'
  | 'b' => some '\x08'
  | 't' => some '\t'
  | '\t' => some '\t'
  | 'n' => some '\n'
  | 'v' => some '\x0b'
  | 'f' => some '\x0c'
  | 'r' => some '\r'
  | 'e' => some '\x1b'
  | ' ' => some ' '
  | '\x22' => some '\x22'
  | '/' => some '/'
  | '\\' => some '\\'
  | 'N' => some '\u0085'
  | '_' => some '\u00a0'
  | 'L' => some '\u2028'
  | 'P' => some '\u2029'
  | _ => none

def hexLength? : Char → Option Nat
  | 'x' => some 2
  | 'u' => some 4
  | 'U' => some 8
  | _ => none

def character? (code : Nat) : Option Char :=
  if code < 0xd800 || (0xe000 ≤ code && code < 0x110000) then some (Char.ofNat code) else none

/-- Reads a scalar in double quotes from behind the first one.  Of an escape by number
`digits` are still to come, and those before them have the value `code`. -/
def double (text : List Char) (gap : Gap) (digits code : Nat) :
    List Glyph → Option (String × List Glyph)
  | [] => none
  | glyph :: rest =>
    if digits != 0 then
      match Text.hexValue? glyph.char with
      | none => none
      | some value =>
        let code := 16 * code + value
        if digits != 1 then double text gap (digits - 1) code rest
        else
          match character? code with
          | some c => double (c :: text) .none 0 0 rest
          | none => none
    else if isLineEnd glyph then double text (gap.addLineEnd glyph.char) 0 0 rest
    else if isSpace glyph then double text (gap.addBlank glyph.char) 0 0 rest
    else if (marker? (glyph :: rest)).isSome then none
    else
      let text := gap.folded ++ text
      if glyph.char == '\x22' then some (String.ofList text.reverse, rest)
      else if glyph.char == '\\' then
        match rest with
        | [] => none
        | next :: rest' =>
          if isLineEnd next then double text .escaped 0 0 rest'
          else
            match escaped? next.char, hexLength? next.char with
            | some c, _ => double (c :: text) .none 0 0 rest'
            | none, some length => double text .none length 0 rest'
            | none, none => none
      else double (glyph.char :: text) .none 0 0 rest

end CypherSql.Yaml
