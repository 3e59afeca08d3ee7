/-! # Rounding a quotient

`roundQuotient n d` is the whole number nearest to `n / d`; a quotient half-way
between two goes to the even one.
-/

namespace CypherSql.Decimal

/-- The nearest whole number to `num / den`, ties to even. -/
def roundQuotient (num den : Nat) : Nat :=
  let floor := num / den
  let twice := 2 * (num % den)
  if twice < den then floor
  else if den < twice then floor + 1
  else floor + floor % 2

end CypherSql.Decimal
