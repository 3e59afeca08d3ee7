/-! # Ranges of characters

* `inRanges` — membership in a table of closed ranges.
-/

namespace CypherSql.Text

/-- Whether `code` lies in one of the closed ranges. -/
def inRanges (code : Nat) (ranges : List (Nat × Nat)) : Bool :=
  ranges.any fun range => range.1 ≤ code && code ≤ range.2

end CypherSql.Text
