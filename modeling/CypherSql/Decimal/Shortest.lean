import CypherSql.Decimal.Binary64

/-! # The fewest digits that read back

A finite binary64 number is written with the fewest decimal digits from which it
can be recovered, and of those decimals the nearest to it.

* `Tie` — which of two decimals at the same distance is taken.
* `Interval` — the quotients that round to the number.
* `shortest` — its digits and the power of ten they count.
-/

namespace CypherSql.Decimal

/-- The choice between two decimals that are equally near: the greater one, or the
one whose last digit is even. -/
inductive Tie where
  | upward
  | toEven
  deriving DecidableEq, Repr

def Tie.goesUp (tie : Tie) (below : Nat) : Bool :=
  match tie with
  | upward => true
  | toEven => below % 2 == 1

/-- The quotients that round to one number: those between `low / den` and
`high / den`, the ends included when `closed`. -/
structure Interval where
  low : Nat
  high : Nat
  den : Nat
  closed : Bool

/-- What rounds to `significand · 2 ^ exponent`: half the gap to either neighbour.
Below a power of two the gap is half as wide, and the ends belong to the even
significand. -/
def Interval.around (significand : Nat) (exponent : Int) : Interval :=
  let narrow := significand = Binary64.leastNormal ∧ Binary64.leastExponent < exponent
  let (unit, den) := Binary64.ratio 1 (exponent - 2)
  { low := (if narrow then 4 * significand - 1 else 4 * significand - 2) * unit
    high := (4 * significand + 2) * unit
    den
    closed := significand % 2 = 0 }

def Interval.holds (interval : Interval) (num den : Nat) : Bool :=
  let value := num * interval.den
  let low := interval.low * den
  let high := interval.high * den
  if interval.closed then low ≤ value && value ≤ high else low < value && value < high

/-- The exponent `m` with `10 ^ m ≤ num / den < 10 ^ (m + 1)`. -/
def magnitude (num den : Nat) : Int :=
  let guess : Int := ((Nat.toDigits 10 num).length : Int) - ((Nat.toDigits 10 den).length : Int)
  let reached :=
    if 0 ≤ guess then den * Nat.pow 10 guess.toNat ≤ num
    else den ≤ num * Nat.pow 10 (-guess).toNat
  if reached then guess else guess - 1

def decimalRatio (count : Nat) (exponent : Int) : Nat × Nat :=
  if 0 ≤ exponent then (count * Nat.pow 10 exponent.toNat, 1)
  else (count, Nat.pow 10 (-exponent).toNat)

/-- The decimal on the grid of `10 ^ exponent` that lies in the interval and is
nearest to `num / den`: one of the two neighbours of the quotient, if any. -/
def onGrid (tie : Tie) (interval : Interval) (num den : Nat) (exponent : Int) : Option Nat :=
  let (unitNum, unitDen) := decimalRatio 1 exponent
  let top := num * unitDen
  let bottom := den * unitNum
  let below := top / bottom
  let inside (count : Nat) : Bool :=
    let (n, d) := decimalRatio count exponent
    interval.holds n d
  match inside below, inside (below + 1) with
  | true, false => some below
  | false, true => some (below + 1)
  | false, false => none
  | true, true =>
    let twice := 2 * (top % bottom)
    let goesUp := if twice = bottom then tie.goesUp below else decide (bottom < twice)
    some (if goesUp then below + 1 else below)

/-- Drops zeros at the end of a decimal into its exponent. -/
def dropZeros : Nat → Nat → Int → Nat × Int
  | 0, count, exponent => (count, exponent)
  | fuel + 1, count, exponent =>
    if count ≠ 0 ∧ count % 10 = 0 then dropZeros fuel (count / 10) (exponent + 1)
    else (count, exponent)

/-- The shortest decimal `count · 10 ^ exponent` that reads back as the number.
Seventeen digits always do. -/
def shortest (tie : Tie) (significand : Nat) (exponent : Int) : Nat × Int :=
  if significand = 0 then (0, 0)
  else
    let (num, den) := Binary64.ratio significand exponent
    let interval := Interval.around significand exponent
    let top := magnitude num den
    let found := (List.range 17).findSome? fun (extra : Nat) =>
      (onGrid tie interval num den (top - extra)).map fun count => (count, top - (extra : Int))
    let (count, power) := found.getD (significand, exponent)
    dropZeros 20 count power

end CypherSql.Decimal
