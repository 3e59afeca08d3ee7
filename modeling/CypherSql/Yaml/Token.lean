import CypherSql.Yaml.Block

/-! # Tokens of YAML documents

* `Token` — a mark, a name or a scalar, or the beginning or end of a block.
* `readName`, `readTag`, `readDirective` — the tokens with names.
-/

namespace CypherSql.Yaml

/-- A token.  The beginning of a block and its keys are tokens, too, though nothing need
be written for them.  A tag is given by the handle that stands for its first part and by
the rest of it. -/
inductive Token where
  | version (major minor : Nat)
  | handle (name : String) (address : String)
  | documentStart
  | documentEnd
  | blockSequence
  | blockMapping
  | blockEnd
  | openBracket
  | closeBracket
  | openBrace
  | closeBrace
  | comma
  | dash
  | key
  | value
  | alias (name : String)
  | anchor (name : String)
  | tag (handle suffix : String)
  | scalar (text : String) (style : Style)
  deriving DecidableEq, Repr

/-! ## Names -/

def word (glyphs : List Glyph) : String × List Glyph :=
  (textOf (glyphs.takeWhile isWordCharacter), glyphs.dropWhile isWordCharacter)

def readName (glyphs : List Glyph) : Option (String × List Glyph) :=
  let (name, rest) := word glyphs
  if name.isEmpty || !(endsWord rest || startsWith "?:,]\x7d%@`".toList rest) then none
  else some (name, rest)

/-! ## Tags -/

/-- The characters of addresses.  A comma and brackets belong to some only. -/
def isAddressCharacter (brackets : Bool) (glyph : Glyph) : Bool :=
  isWordCharacter glyph || ";/?:@&=+$.!~*'()".toList.contains glyph.char ||
    (brackets && [',', '[', ']'].contains glyph.char)

/-- How many octets of a character in UTF-8 are to come behind one more. -/
def octetsBehind (before octet : Nat) : Option Nat :=
  if before != 0 then if 0x80 ≤ octet && octet < 0xc0 then some (before - 1) else none
  else if octet < 0x80 then some 0
  else if octet < 0xc0 then none
  else if octet < 0xe0 then some 1
  else if octet < 0xf0 then some 2
  else if octet < 0xf8 then some 3
  else none

/-- Reads an address, possibly empty, of which `text` has been read, last character first.
Octets may be written as numbers; of the last character `pending` ones are to come.  An
octet stands for itself in what is read. -/
def readAddress (brackets : Bool) (text : List Char) (pending : Nat) :
    List Glyph → Option (String × List Glyph)
  | [] => if pending == 0 then some (String.ofList text.reverse, []) else none
  | glyph :: rest =>
    if glyph.char == '%' then
      match rest with
      | a :: b :: rest' =>
        match Text.hexValue? a.char, Text.hexValue? b.char with
        | some high, some low =>
          let octet := 16 * high + low
          match octetsBehind pending octet with
          | some pending => readAddress brackets (Char.ofNat octet :: text) pending rest'
          | none => none
        | _, _ => none
      | _ => none
    else if pending != 0 then none
    else if isAddressCharacter brackets glyph then
      readAddress brackets (glyph.char :: text) 0 rest
    else some (String.ofList text.reverse, glyph :: rest)

/-- Reads what is, or at least begins like, the handle of a tag: an exclamation mark, a
word and, if it is a handle, another exclamation mark. -/
def readHandle : List Glyph → Option (String × Bool × List Glyph)
  | [] => none
  | glyph :: rest =>
    if glyph.char == '!' then
      let (name, rest) := word rest
      if startsWith ['!'] rest then some ("!" ++ name ++ "!", true, rest.tail)
      else some ("!" ++ name, false, rest)
    else none

/-- Reads a tag: an address between angles, or a handle and a suffix, of which the handle
is `!` when none is written.  An exclamation mark alone is a tag without a handle. -/
def readTag (flow : Bool) (glyphs : List Glyph) : Option (Token × List Glyph) := do
  let (token, rest) ←
    if startsWith ['<'] glyphs.tail then do
      let (address, rest) ← readAddress true [] 0 (glyphs.drop 2)
      if address.isEmpty || !startsWith ['>'] rest then none
      else some (Token.tag "" address, rest.tail)
    else do
      let (name, isHandle, rest) ← readHandle glyphs
      let (address, rest) ← readAddress false [] 0 rest
      if isHandle then if address.isEmpty then none else some (Token.tag name address, rest)
      else
        let suffix := String.ofList name.toList.tail ++ address
        some (if suffix.isEmpty then Token.tag "" "!" else Token.tag "!" suffix, rest)
  if endsWord rest || (flow && startsWith [','] rest) then some (token, rest) else none

/-! ## Directives -/

def readNumber (glyphs : List Glyph) : Option (Nat × List Glyph) :=
  let isDigit (glyph : Glyph) : Bool := glyph.char.isDigit
  let digits := glyphs.takeWhile isDigit
  if digits.isEmpty || 9 < digits.length then none
  else
    let value := digits.foldl (fun n glyph => 10 * n + (glyph.char.toNat - '0'.toNat)) 0
    some (value, glyphs.dropWhile isDigit)

def readVersion (glyphs : List Glyph) : Option (Token × List Glyph) := do
  let (major, rest) ← readNumber glyphs
  if !startsWith ['.'] rest then none
  else
    let (minor, rest) ← readNumber rest.tail
    some (.version major minor, rest)

def readHandleAddress (glyphs : List Glyph) : Option (Token × List Glyph) := do
  let (name, isHandle, rest) ← readHandle glyphs
  if !(isHandle || name == "!") || !rest.head?.any isSpace then none
  else
    let (address, rest) ← readAddress true [] 0 (rest.dropWhile isSpace)
    if address.isEmpty || !endsWord rest then none else some (.handle name address, rest)

/-- Reads a directive from behind its percent sign, and the rest of its line. -/
def readDirective (glyphs : List Glyph) : Option (Token × List Glyph) := do
  let (name, rest) := word glyphs
  if !endsWord rest then none
  else
    let content := rest.dropWhile isSpace
    let (token, rest) ←
      if name == "YAML" then readVersion content
      else if name == "TAG" then readHandleAddress content
      else none
    let rest ← nextLine? rest
    some (token, rest)

end CypherSql.Yaml
