/-! # Characters of YAML documents

Where a character stands matters: indentation is told by columns, and keys must be short
and on one line.  So documents are read as lists of characters with their places.

* `Glyph` — a character and its place.
* `isLineEnd`, `isSpace`, `endsWord`, `marker?` — how the text is cut.
* `glyphs?` — the characters of a text.
-/

namespace CypherSql.Yaml

/-- A character and its place: the bytes before it in the text, the lines before its own
line and the characters before it on that line. -/
structure Glyph where
  char : Char
  offset : Nat
  line : Nat
  column : Nat
  deriving DecidableEq, Repr

def textOf (glyphs : List Glyph) : String :=
  String.ofList (glyphs.map (·.char))

/-! ## Classes -/

def isAllowed (c : Char) : Bool :=
  let code := c.toNat
  code == 0x9 || code == 0xa || code == 0xd || (0x20 ≤ code && code ≤ 0x7e) || code == 0x85 ||
    (0xa0 ≤ code && code != 0xfffe && code != 0xffff)

/-- The character that a line end counts as.  The separators of lines and of paragraphs
stay what they are, every other line end is a line feed. -/
def lineEnd? (c : Char) : Option Char :=
  if c == '\n' || c == '\r' || c == '\u0085' then some '\n'
  else if c == '\u2028' || c == '\u2029' then some c
  else none

def isLineEnd (glyph : Glyph) : Bool :=
  (lineEnd? glyph.char).isSome

def isSpace (glyph : Glyph) : Bool :=
  glyph.char == ' ' || glyph.char == '\t'

def isWordCharacter (glyph : Glyph) : Bool :=
  glyph.char.isAlphanum || glyph.char == '_' || glyph.char == '-'

def startsWith (characters : List Char) (glyphs : List Glyph) : Bool :=
  glyphs.head?.any fun glyph => characters.contains glyph.char

/-- Whether a word ends here: at white space or at the end of the text. -/
def endsWord (glyphs : List Glyph) : Bool :=
  glyphs.head?.all fun glyph => isSpace glyph || isLineEnd glyph

/-- The mark of which three stand alone at the beginning of a line.  Hyphens open a
document, and points close it. -/
def marker? : List Glyph → Option Char
  | a :: b :: c :: rest =>
    if a.column == 0 && (a.char == '-' || a.char == '.') && b.char == a.char &&
        c.char == a.char && endsWord rest then some a.char
    else none
  | _ => none

/-- What follows the line, on which nothing may stand but spaces and a comment. -/
def nextLine? (glyphs : List Glyph) : Option (List Glyph) :=
  match glyphs.dropWhile isSpace with
  | [] => some []
  | glyph :: rest =>
    if isLineEnd glyph then some rest
    else if glyph.char == '#' then some (rest.dropWhile fun glyph => !isLineEnd glyph).tail
    else none

/-! ## Texts -/

/-- The characters of a text that goes on at a place.  A carriage return and the line feed
behind it are one character. -/
def glyphsFrom (offset line column : Nat) : List Char → List Glyph
  | [] => []
  | '\r' :: '\n' :: rest =>
    ⟨'\n', offset, line, column⟩ :: glyphsFrom (offset + 2) (line + 1) 0 rest
  | c :: rest =>
    match lineEnd? c with
    | some c' =>
      ⟨c', offset, line, column⟩ :: glyphsFrom (offset + c.utf8Size) (line + 1) 0 rest
    | none =>
      ⟨c, offset, line, column⟩ :: glyphsFrom (offset + c.utf8Size) line (column + 1) rest

/-- The characters of a text, if all are allowed.  A byte order mark in front of it is left
out, but takes a column. -/
def glyphs? (text : String) : Option (List Glyph) :=
  if text.toList.all isAllowed then
    match glyphsFrom 0 0 0 text.toList with
    | glyph :: rest => some (if glyph.char == '\ufeff' then rest else glyph :: rest)
    | [] => some []
  else none

end CypherSql.Yaml
