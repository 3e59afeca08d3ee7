import CypherSql.Decimal.Rounding

/-! # Non-negative binary64 numbers

Numbers with a fraction are kept exactly as the binary64 format holds them, and
every operation on them is exact arithmetic on whole numbers.

* `Binary64` — a significand times a power of two, or infinity.
* `Binary64.nearest` — the number of the format nearest to a quotient.
* `Binary64.ratio` — the quotient a finite number denotes.
* `Binary64.bits` — the 64-bit pattern.
-/

namespace CypherSql.Decimal

/-- A number of the format.  `finite s e` is `s · 2 ^ e`: a normal number has
`2 ^ 52 ≤ s < 2 ^ 53`, a subnormal one `s < 2 ^ 52` and `e = -1074`. -/
inductive Binary64 where
  | finite (significand : Nat) (exponent : Int)
  | infinite
  deriving DecidableEq, Repr

namespace Binary64

def leastExponent : Int := -1074

def greatestExponent : Int := 971

def leastNormal : Nat := Nat.pow 2 52

/-- `num / den` divided by `2 ^ exponent`, as a quotient of whole numbers. -/
def scaled (num den : Nat) (exponent : Int) : Nat × Nat :=
  if 0 ≤ exponent then (num, den * Nat.pow 2 exponent.toNat)
  else (num * Nat.pow 2 (-exponent).toNat, den)

/-- The exponent that gives `num / den` a significand of 53 bits, or the least
exponent where that would be smaller still. -/
def exponentFor (num den : Nat) : Int :=
  let guess : Int := (num.log2 : Int) - (den.log2 : Int) - 52
  let (top, bottom) := scaled num den guess
  let exact := if top < bottom * leastNormal then guess - 1 else guess
  max exact leastExponent

/-- The number nearest to `num / den`, ties to even.  A quotient too large for
the format becomes infinite. -/
def nearest (num den : Nat) : Binary64 :=
  if num = 0 then finite 0 leastExponent
  else
    let exponent := exponentFor num den
    let (top, bottom) := scaled num den exponent
    let rounded := roundQuotient top bottom
    let (significand, exponent) :=
      if rounded = 2 * leastNormal then (leastNormal, exponent + 1) else (rounded, exponent)
    if greatestExponent < exponent then infinite else finite significand exponent

def ratio (significand : Nat) (exponent : Int) : Nat × Nat :=
  if 0 ≤ exponent then (significand * Nat.pow 2 exponent.toNat, 1)
  else (significand, Nat.pow 2 (-exponent).toNat)

/-- The 64-bit pattern: eleven bits of exponent above fifty-two of significand. -/
def bits : Binary64 → Nat
  | infinite => 0x7ff * leastNormal
  | finite significand exponent =>
    if significand < leastNormal then significand
    else (exponent - leastExponent + 1).toNat * leastNormal + (significand - leastNormal)

end Binary64

end CypherSql.Decimal
