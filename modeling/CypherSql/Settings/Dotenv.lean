import CypherSql.Settings.Environment
import CypherSql.Text.Alphanumeric

/-! # Files with environment variables

A file of lines `NAME=value` adds to the environment.  Variables that are set already
keep their values, and the first line that cannot be read ends the file.

* `logicalLines` — lines, joined where a quote stays open.
* `parseLine` — the variable and the value of a line.
* `Environment.extend` — the environment with the variables of a file.
-/

namespace CypherSql.Dotenv

open CypherSql.Text (isBlank)

/-! ## Lines -/

inductive Position where
  | outside
  | blank
  | escape
  | inSingle
  | inSingleEscape
  | inDouble
  | inDoubleEscape
  | inComment
  deriving DecidableEq, Repr

def Position.next (position : Position) (c : Char) : Position :=
  match position with
  | inComment => inComment
  | escape => outside
  | inSingle => if c == '\\' then inSingleEscape else if c == '\x27' then outside else inSingle
  | inSingleEscape => inSingle
  | inDouble => if c == '\\' then inDoubleEscape else if c == '\x22' then outside else inDouble
  | inDoubleEscape => inDouble
  | blank =>
    if c == '#' then inComment
    else if c == '\\' then escape
    else if c == '\x22' then inDouble
    else if c == '\x27' then inSingle
    else outside
  | outside =>
    if isBlank c && c != '\n' && c != '\r' then blank
    else if c == '\\' then escape
    else if c == '\x22' then inDouble
    else if c == '\x27' then inSingle
    else outside

/-- The position behind a physical line, and the line up to a comment. -/
def scanLine : Position → List Char → List Char × Position
  | position, [] => ([], position)
  | position, c :: rest =>
    match position.next c with
    | .inComment => ([], .inComment)
    | next =>
      let (line, last) := scanLine next rest
      (c :: line, last)

def physicalLines : List Char → List (List Char)
  | [] => []
  | c :: rest =>
    if c == '\n' then [c] :: physicalLines rest
    else
      match physicalLines rest with
      | [] => [[c]]
      | line :: others => (c :: line) :: others

def withoutEnd (line : List Char) : List Char :=
  match line.reverse with
  | '\n' :: '\r' :: rest => rest.reverse
  | '\n' :: rest => rest.reverse
  | _ => line

def isComment (line : List Char) : Bool :=
  (Text.trimLeft line).head? == some '#'

/-- The logical lines: a physical line goes on in the next one while a quote is open.
Nothing marks the end of a text that breaks off inside one. -/
def logicalLines (held : List Char) (position : Position) :
    List (List Char) → List (Option (List Char))
  | [] => if position == .outside then [] else [none]
  | line :: rest =>
    let buffer := held ++ line
    if isComment buffer then some [] :: logicalLines [] .outside rest
    else
      match scanLine position line with
      | (_, .outside) => some (withoutEnd buffer) :: logicalLines [] .outside rest
      | (kept, .inComment) => some (held ++ kept) :: logicalLines [] .outside rest
      | (_, position) => logicalLines buffer position rest

/-! ## Values -/

/-- How a reference to another variable is being read: not at all, as a bare name, or as
a name between braces. -/
inductive Reference where
  | absent
  | bare
  | braced
  deriving DecidableEq, Repr

/-- A value as far as it has been read, last character first. -/
structure Reading where
  output : List Char
  inSingle : Bool
  inDouble : Bool
  escaped : Bool
  ending : Bool
  reference : Reference
  name : List Char

def Reading.start : Reading :=
  ⟨[], false, false, false, false, .absent, []⟩

/-- Puts the value of the variable that has been named into the output. -/
def Reading.resolve (reading : Reading) (lookup : String → String) : Reading :=
  let value := lookup (String.ofList reading.name.reverse)
  { reading with output := value.toList.reverse ++ reading.output, name := [] }

def Reading.push (reading : Reading) (c : Char) : Reading :=
  { reading with output := c :: reading.output }

/-- Reads one more character of a reference.  A bare name is made of letters and digits of
any script. -/
def Reading.refer (reading : Reading) (lookup : String → String) (c : Char) : Reading :=
  if Text.isAlphanumeric c then { reading with name := c :: reading.name }
  else if reading.reference == .braced then
    if c == '\x7d' then { reading.resolve lookup with reference := .absent }
    else { reading with name := c :: reading.name }
  else if c == '\x7b' && reading.name.isEmpty then { reading with reference := .braced }
  else
    let resolved := reading.resolve lookup
    if c == '$' then resolved else { resolved with reference := .absent }.push c

/-- Reads a value.  Behind a blank outside of quotes only blanks and a comment may
follow. -/
def readValue (lookup : String → String) (reading : Reading) : List Char → Option Reading
  | [] => some reading
  | c :: rest =>
    if reading.ending then
      if c == ' ' || c == '\t' then readValue lookup reading rest
      else if c == '#' then some reading
      else none
    else if reading.escaped then
      let reading := { reading with escaped := false }
      if c == 'n' then readValue lookup (reading.push '\n') rest
      else if c == '\\' || c == '\x27' || c == '\x22' || c == '$' || c == ' ' then
        readValue lookup (reading.push c) rest
      else none
    else if reading.inSingle then
      readValue lookup (if c == '\x27' then { reading with inSingle := false } else reading.push c)
        rest
    else if reading.reference != .absent then readValue lookup (reading.refer lookup c) rest
    else if c == '$' then readValue lookup { reading with reference := .bare } rest
    else if c == '\\' then readValue lookup { reading with escaped := true } rest
    else if c == '\x22' then
      readValue lookup { reading with inDouble := !reading.inDouble } rest
    else if reading.inDouble then readValue lookup (reading.push c) rest
    else if c == '\x27' then readValue lookup { reading with inSingle := true } rest
    else if c == ' ' || c == '\t' then readValue lookup { reading with ending := true } rest
    else readValue lookup (reading.push c) rest

/-- The value that a text describes.  Quotes and braces must be closed. -/
def parseValue (lookup : String → String) (text : List Char) : Option String := do
  let reading ← readValue lookup .start text
  if reading.inSingle || reading.inDouble || reading.reference == .braced then none
  else some (String.ofList (reading.resolve lookup).output.reverse)

/-! ## Assignments -/

/-- A name of letters, digits, underscores and points, and what follows it. -/
def readName (text : List Char) : Option (String × List Char) :=
  match text with
  | c :: _ =>
    if c.isAlpha || c == '_' then
      let inName (c : Char) : Bool := c.isAlphanum || c == '_' || c == '.'
      some (String.ofList (text.takeWhile inName), text.dropWhile inName)
    else none
  | [] => none

def behindEquals (text : List Char) : Option (List Char) :=
  match Text.trimLeft text with
  | '=' :: rest => some (Text.trimLeft rest)
  | _ => none

/-- The name that is assigned to and the text of its value.  The word `export` may stand
in front. -/
def readAssignment (text : List Char) : Option (String × List Char) := do
  let (name, rest) ← readName text
  match behindEquals rest with
  | some value => some (name, value)
  | none =>
    if name == "export" then
      let (name, rest) ← readName (Text.trimLeft rest)
      let value ← behindEquals rest
      some (name, value)
    else none

inductive Line where
  | assignment (name value : String)
  | empty
  | broken
  deriving DecidableEq, Repr

def parseLine (lookup : String → String) (line : List Char) : Line :=
  let text := Text.trim line
  if text.isEmpty || isComment text then .empty
  else
    match readAssignment text with
    | none => .broken
    | some (name, value) =>
      if value.isEmpty || isComment value then .assignment name ""
      else
        match parseValue lookup value with
        | some value => .assignment name value
        | none => .broken

/-- Adds the assignments of some lines behind the variables that are set. -/
def extendBy (environment : Environment) : List (Option (List Char)) → Environment
  | [] => environment
  | none :: _ => environment
  | some line :: rest =>
    match parseLine (fun name => (environment.find? name).getD "") line with
    | .assignment name value => extendBy (environment ++ [(name, value)]) rest
    | .empty => extendBy environment rest
    | .broken => environment

end CypherSql.Dotenv

namespace CypherSql

def Environment.extend (environment : Environment) (content : String) : Environment :=
  let chars := match content.toList with
    | c :: rest => if c.toNat == 0xfeff then rest else c :: rest
    | [] => []
  Dotenv.extendBy environment (Dotenv.logicalLines [] .outside (Dotenv.physicalLines chars))

end CypherSql
