import CypherSql.Decimal.Layout
import CypherSql.Text.Digits

/-! # JSON values

The cells of a row are JSON values, and a compiled query can be printed as one.  An
object keeps its members in the order they were given.

* `Json` — the values.
* `Json.compact` — on one line, without spaces.
* `Json.pretty` — one member a line, indented by two spaces a level.
-/

namespace CypherSql

open CypherSql.Decimal (Binary64)
open CypherSql.Text (hexDigits)

inductive Json where
  | null
  | bool (value : Bool)
  | integer (value : Int)
  | real (negative : Bool) (size : Binary64)
  | text (value : String)
  | array (items : List Json)
  | object (members : List (String × Json))
  deriving Inhabited

namespace Json

/-- One character of a JSON string.  Only control characters, the quote and the
backslash are escaped. -/
def escapeChar (c : Char) : List Char :=
  if c == '\x22' then ['\\', '\x22']
  else if c == '\\' then ['\\', '\\']
  else if c == '\n' then ['\\', 'n']
  else if c == '\r' then ['\\', 'r']
  else if c == '\t' then ['\\', 't']
  else if c == '\x08' then ['\\', 'b']
  else if c == '\x0c' then ['\\', 'f']
  else if c.toNat < 0x20 then ['\\', 'u'] ++ hexDigits 4 c.toNat
  else [c]

def quote (value : String) : String :=
  String.ofList ('\x22' :: value.toList.flatMap escapeChar ++ ['\x22'])

def atomText : Json → String
  | bool true => "true"
  | bool false => "false"
  | integer value => toString value
  | real negative size => (if negative then "-" else "") ++ String.ofList size.exchange
  | text value => quote value
  | _ => "null"

mutual

def compact : Json → String
  | array items => "[" ++ ",".intercalate (compactItems items) ++ "]"
  | object members => "\x7b" ++ ",".intercalate (compactMembers members) ++ "\x7d"
  | value => atomText value

def compactItems : List Json → List String
  | [] => []
  | item :: rest => compact item :: compactItems rest

def compactMembers : List (String × Json) → List String
  | [] => []
  | (key, value) :: rest => (quote key ++ ":" ++ compact value) :: compactMembers rest

end

/-- The line break before a part at the given depth. -/
def lineBreak (depth : Nat) : String :=
  "\n" ++ String.ofList (List.replicate (2 * depth) ' ')

/-- Parts between brackets, each on its own line one level deeper; nothing between
the brackets when there are no parts. -/
def block (depth : Nat) (opening closing : String) (parts : List String) : String :=
  if parts.isEmpty then opening ++ closing
  else
    opening ++ lineBreak (depth + 1) ++ ("," ++ lineBreak (depth + 1)).intercalate parts ++
      lineBreak depth ++ closing

mutual

/-- The value over several lines, its first line already indented. -/
def prettyAt (depth : Nat) : Json → String
  | array items => block depth "[" "]" (prettyItems depth items)
  | object members => block depth "\x7b" "\x7d" (prettyMembers depth members)
  | value => atomText value

def prettyItems (depth : Nat) : List Json → List String
  | [] => []
  | item :: rest => prettyAt (depth + 1) item :: prettyItems depth rest

def prettyMembers (depth : Nat) : List (String × Json) → List String
  | [] => []
  | (key, value) :: rest =>
    (quote key ++ ": " ++ prettyAt (depth + 1) value) :: prettyMembers depth rest

end

def pretty (value : Json) : String :=
  prettyAt 0 value

end Json

end CypherSql
