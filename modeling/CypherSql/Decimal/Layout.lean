import CypherSql.Decimal.Shortest

/-! # How numbers with a fraction are written

Three texts hold such numbers, each with its own layout.

* `Binary64.plain` — in a query that is printed back: positional, never an
  exponent, no point after a whole number, ties upward.
* `Binary64.sixPlaces` — in SQL: exactly six places.
* `Binary64.exchange` — in a row cell: a point or an exponent always, positional
  from `10 ^ -5` below `10 ^ 16`, ties to even.
-/

namespace CypherSql.Decimal

def digits (n : Nat) : List Char :=
  Nat.toDigits 10 n

/-- The digits with the point `places` positions from their end. -/
def withPoint (ds : List Char) (places : Nat) : List Char :=
  if places < ds.length then
    ds.take (ds.length - places) ++ '.' :: ds.drop (ds.length - places)
  else ['0', '.'] ++ List.replicate (places - ds.length) '0' ++ ds

/-- Positional text of `count · 10 ^ exponent`. -/
def positional (count : Nat) (exponent : Int) : List Char :=
  if 0 ≤ exponent then digits count ++ List.replicate exponent.toNat '0'
  else withPoint (digits count) (-exponent).toNat

namespace Binary64

/-- The shortest decimal in positional form; a whole number has no point. -/
def plain : Binary64 → List Char
  | infinite => ['i', 'n', 'f']
  | finite significand exponent =>
    let (count, power) := shortest .upward significand exponent
    positional count power

/-- The exact value rounded to six places, ties to even. -/
def sixPlaces : Binary64 → List Char
  | infinite => ['i', 'n', 'f']
  | finite significand exponent =>
    let (num, den) := ratio significand exponent
    withPoint (digits (roundQuotient (num * Nat.pow 10 6) den)) 6

/-- Shortest digits, with a fraction of at least one digit between `10 ^ -5` and
`10 ^ 16`, else with one digit before the point and an exponent, which always has a sign. -/
def exchange : Binary64 → List Char
  | infinite => ['n', 'u', 'l', 'l']
  | finite significand exponent =>
    let (count, power) := shortest .toEven significand exponent
    let ds := digits count
    let point : Int := ds.length + power
    if 0 ≤ power ∧ point ≤ 16 then positional count power ++ ['.', '0']
    else if -5 < point ∧ point ≤ 16 then positional count power
    else
      let mantissa := match ds with
        | first :: second :: rest => first :: '.' :: second :: rest
        | _ => ds
      let scale := point - 1
      mantissa ++ 'e' :: (if scale < 0 then '-' else '+') :: digits scale.natAbs

end Binary64

end CypherSql.Decimal
