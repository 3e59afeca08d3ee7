/-! # Ordered lists without repetition

Small sets that are shown in order are kept as ascending lists.

* `insertOrdered` — adds one element, unless it is there already.
* `unionOrdered` — adds every element of a list.
-/

namespace CypherSql

/-- Adds `x` in front of the first element it comes before.  An element that is
neither before nor after `x` is taken for `x` itself, and nothing is added. -/
def insertOrdered {α : Type} (before : α → α → Bool) (x : α) : List α → List α
  | [] => [x]
  | y :: rest =>
    if before x y then x :: y :: rest
    else if before y x then y :: insertOrdered before x rest
    else y :: rest

/-- Adds the elements of `xs` to `set`, one after the other. -/
def unionOrdered {α : Type} (before : α → α → Bool) (set xs : List α) : List α :=
  xs.foldl (fun acc x => insertOrdered before x acc) set

end CypherSql
