/-! # Texts cut into pieces

* `pieces` — the pieces of a text between the occurrences of a character.
-/

namespace CypherSql.Text

/-- The pieces of a text between the occurrences of a character, at least one. -/
def pieces (separator : Char) : List Char → List (List Char)
  | [] => [[]]
  | c :: rest =>
    if c == separator then [] :: pieces separator rest
    else
      match pieces separator rest with
      | [] => [[c]]
      | piece :: others => (c :: piece) :: others

end CypherSql.Text
