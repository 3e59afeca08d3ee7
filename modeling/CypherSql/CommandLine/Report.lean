import CypherSql.Text.Pieces

/-! # Reports of failures

A failure is reported by what could not be done, then by what brought it about.

* `Report` — a failure and its causes.
* `Report.text` — the report as it is printed.
-/

namespace CypherSql.CommandLine

/-- What could not be done, and what brought it about, outermost first. -/
structure Report where
  summary : String
  causes : List String
  deriving DecidableEq, Repr

/-- A cause with `first` in front of its first line and `next` in front of the others. -/
def indented (first next : String) (cause : String) : String :=
  first ++ ("\n" ++ next).intercalate
    ((Text.pieces '\n' cause.toList).map String.ofList)

/-- A number on five places. -/
def numbered (n : Nat) : String :=
  let digits := toString n
  String.ofList (List.replicate (5 - digits.length) ' ') ++ digits ++ ": "

/-- The causes, each on its own lines, numbered when there are several. -/
def causeLines : List String → List String
  | [] => []
  | [only] => [indented "    " "    " only]
  | causes => causes.zipIdx.map fun (cause, n) => indented (numbered n) "       " cause

def Report.text (report : Report) : String :=
  let causes :=
    if report.causes.isEmpty then ""
    else "\n\nCaused by:" ++ String.join ((causeLines report.causes).map fun line => "\n" ++ line)
  "Error: " ++ report.summary ++ causes ++ "\n"

end CypherSql.CommandLine
