import CypherSql.Text.Digits
import CypherSql.Text.Hidden

/-! # Quoted text for messages

A message shows a piece of input between double quotes, so that its ends are
plain and nothing in it is invisible.

* `escape` — how one character is written.
* `quoted` — the whole text between its quotes.
-/

namespace CypherSql.Text

/-- One character inside quotes: a short escape where there is one, the scalar
value in braces where the character is hidden, else the character itself. -/
def escape (c : Char) : List Char :=
  if c == '\x22' then ['\\', '\x22']
  else if c == '\\' then ['\\', '\\']
  else if c == '\n' then ['\\', 'n']
  else if c == '\r' then ['\\', 'r']
  else if c == '\t' then ['\\', 't']
  else if c == '\x00' then ['\\', '0']
  else if isHidden c then ['\\', 'u', '\x7b'] ++ hexDigits 1 c.toNat ++ ['\x7d']
  else [c]

def quoted (text : List Char) : List Char :=
  '\x22' :: text.flatMap escape ++ ['\x22']

end CypherSql.Text
