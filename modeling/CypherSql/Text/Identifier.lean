/-! # Plain names

* `startsName`, `continuesName` — the characters of an unquoted name.
* `isIdentifier` — a text that is one unquoted name from end to end.
* `sameIgnoringCase` — equality up to the case of ASCII letters.
-/

namespace CypherSql.Text

def startsName (c : Char) : Bool :=
  c.isAlpha || c == '_'

def continuesName (c : Char) : Bool :=
  c.isAlphanum || c == '_'

/-- Whether `text` is a name that may stand unquoted, in SQL as in Cypher. -/
def isIdentifier (text : String) : Bool :=
  match text.toList with
  | [] => false
  | first :: rest => startsName first && rest.all continuesName

def sameIgnoringCase (left right : String) : Bool :=
  left.toList.map Char.toLower == right.toList.map Char.toLower

end CypherSql.Text
