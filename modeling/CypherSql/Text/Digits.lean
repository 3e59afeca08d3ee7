/-! # Numbers as digits

* `hexDigits` — lowercase hexadecimal digits, padded on the left with zeros.
* `padLeft` — padding of any text to a least width.
* `hexValue?` — reads a hexadecimal digit.
-/

namespace CypherSql.Text

/-- Puts `fill` in front of `text` until it is `width` characters long. -/
def padLeft (width : Nat) (fill : Char) (text : List Char) : List Char :=
  List.replicate (width - text.length) fill ++ text

/-- The lowercase hexadecimal digits of `n`, at least `width` of them. -/
def hexDigits (width n : Nat) : List Char :=
  padLeft width '0' (Nat.toDigits 16 n)

def hexValue? (c : Char) : Option Nat :=
  if c.isDigit then some (c.toNat - '0'.toNat)
  else if 'a' ≤ c && c ≤ 'f' then some (c.toNat - 'a'.toNat + 10)
  else if 'A' ≤ c && c ≤ 'F' then some (c.toNat - 'A'.toNat + 10)
  else none

end CypherSql.Text
